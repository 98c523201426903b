/-
  Mtrader.Connectors.Reconnection

  How many heartbeats a connector has, and whether it stays disconnected.

  There is at most one heartbeat, and a connector that has been disconnected stays so, in
  the runs in which nobody logs in while a heartbeat that has found the terminal gone is
  unfinished, nor after `disconnect` has returned by a call made before.
-/

import Mtrader.Connectors.Heartbeat

namespace Mtrader.Connectors

open Coroutine Py

variable {κ : Type} [DecidableEq κ] {self : MT5Connector} {calls : κ → ClientCall}
variable {rounds : ℕ → ℕ} {h : ConnectorHistory κ} {c : ConnectorConfig κ}

-- ============================================================================
-- Runs
-- ============================================================================

/-- A client has called `connect` or `reconnect`. -/
def Reopened (calls : κ → ClientCall) (h : ConnectorHistory κ) : Prop :=
  ∃ i ev, (.client i, ev) ∈ h ∧ ev.op = .begin ∧ calls i ≠ .disconnect

/-- Nobody logs in while a heartbeat that has found the terminal gone is unfinished, nor
    after a call of `disconnect` has returned before a client calls `connect` or `reconnect`
    again. -/
structure Calm (calls : κ → ClientCall) (h : ConnectorHistory κ) : Prop where
  found : ∀ x ev older, (x, ev) :: older <:+ h → logsIn ev →
    ∀ n, ev.pre.tasks.Unfinished n → ¬ FoundGone older n
  asked : ∀ x ev newer i r older, (x, ev) :: (newer ++ (.client i, r) :: older) <:+ h →
    logsIn ev → r.op = .returned → calls i = .disconnect → Reopened calls newer

omit [DecidableEq κ] in
theorem Calm.of_suffix {h' : ConnectorHistory κ} (hcalm : Calm calls h) (hsuf : h' <:+ h) :
    Calm calls h' where
  found x ev older hold := hcalm.found x ev older (hold.trans hsuf)
  asked x ev newer i r older hold := hcalm.asked x ev newer i r older (hold.trans hsuf)

variable {c' : ConnectorConfig κ} {x : Actor κ}
variable {ev : Event ConnectorWorld ConnectorOp.Ans (Thrown Exc)}

theorem move_of_step (hrun : ConnectorRun self calls rounds h c)
    (hs : Step ConnectorOp.suspends connectorEnv c x ev c') :
    Move (roleOf calls x) x c.world (stage calls h x) ev.op ev.ans
      ((stage calls h x).next (roleOf calls x) ev.op ev.ans) c'.world := by
  have hobeys := hrun.obeys (start_obeys x)
  cases hs with
  | mk _ hp henv =>
      rw [hp] at hobeys
      exact move_of_may hobeys.1 henv

theorem orderly_of_run (hrun : ConnectorRun self calls rounds h c) (hcalm : Calm calls h) :
    Orderly calls h c.world := by
  induction hrun with
  | nil => exact orderly_start
  | @cons h c c' x ev hr hs ih =>
      have hinv := ih (hcalm.of_suffix (List.suffix_cons _ _))
      have hmove := move_of_step hr hs
      have hreleased : ∀ y, stage calls h y = .released → x = y :=
        fun y hy => hs.eq_of_running (running_of_released hr hy)
      cases hs with
      | mk =>
          refine hinv.step hmove ?_ hreleased
          exact fun hlogs => hcalm.found _ _ _ List.suffix_rfl hlogs

/-- The connector is disconnected, and nobody is about to connect it. -/
structure Shut (calls : κ → ClientCall) (h : ConnectorHistory κ) (w : ConnectorWorld) :
    Prop where
  connected : w.connected = false
  finished : AllFinished w
  idle : ∀ x, stage calls h x ≠ .logged ∧ stage calls h x ≠ .online

omit [DecidableEq κ] in
theorem Move.idle {role : Role} {w w' : ConnectorWorld} {p p' : Stage} {e : ConnectorOp}
    {a : Except (Thrown Exc) e.Ans} (hmove : Move role x w p e a p' w')
    (hidle : p ≠ .logged ∧ p ≠ .online) (hlogs : ¬ Connectors.logsIn ⟨w, e, a⟩) :
    p' ≠ .logged ∧ p' ≠ .online := by
  cases hmove with
  | stay => exact hidle
  | login => exact absurd rfl hlogs
  | connect => exact absurd rfl hidle.1
  | enter _ hp' =>
      rcases hp' with rfl | rfl
      · exact ⟨nofun, nofun⟩
      · exact ⟨nofun, nofun⟩
  | leave _ hp' =>
      rcases hp' with rfl | ⟨-, rfl⟩
      · exact ⟨nofun, nofun⟩
      · exact ⟨nofun, nofun⟩
  | _ => exact ⟨nofun, nofun⟩

omit [DecidableEq κ] in
theorem Move.stays_off {role : Role} {w w' : ConnectorWorld} {p p' : Stage} {e : ConnectorOp}
    {a : Except (Thrown Exc) e.Ans} (hmove : Move role x w p e a p' w') (hp : p ≠ .logged)
    (hoff : w.connected = false) : w'.connected = false := by
  cases hmove with
  | stay _ _ hagrees | cancel hagrees | begin _ hagrees =>
      obtain ⟨cancelled, cancelling, rfl⟩ := hagrees
      exact hoff
  | connect => exact absurd rfl hp
  | disconnect => rfl
  | drop => rfl
  | _ => exact hoff

theorem Shut.step (hshut : Shut calls h c.world)
    (hrun : ConnectorRun self calls rounds h c)
    (hs : Step ConnectorOp.suspends connectorEnv c x ev c') (hlogs : ¬ logsIn ev) :
    Shut calls ((x, ev) :: h) c'.world := by
  have hmove := move_of_step hrun hs
  rw [← hs.pre_eq] at hmove hshut
  constructor
  case connected => exact hmove.stays_off (hshut.idle x).1 hshut.connected
  case finished =>
    intro n hn
    rcases hmove.unfinished hn with ⟨hn, -⟩ | ⟨honline, -⟩
    · exact hshut.finished n hn
    · exact (hshut.idle x).2 honline
  case idle =>
    intro y
    by_cases hxy : x = y
    · subst hxy
      rw [stage_self]
      exact hmove.idle (hshut.idle x) hlogs
    · rw [stage_other hxy]
      exact hshut.idle y

theorem Orderly.shut {i : κ} {r : Event ConnectorWorld ConnectorOp.Ans (Thrown Exc)}
    (hrun : ConnectorRun self calls rounds h c) (hinv : Orderly calls h c.world)
    (hs : Step ConnectorOp.suspends connectorEnv c (.client i) r c') (hop : r.op = .returned)
    (hcall : calls i = .disconnect) : Shut calls ((.client i, r) :: h) c'.world := by
  have hrole : roleOf calls (.client i : Actor κ) = .closes := by
    show (calls i).role = .closes
    rw [hcall]
    rfl
  have hobeys := hrun.obeys (start_obeys (.client i))
  cases hs with
  | @mk e k a w' _ hp henv =>
      obtain rfl : e = .returned := hop
      rw [hp] at hobeys
      have hreleased : stage calls h (.client i) = .released := by
        rcases hobeys.1 with ⟨hreleased, -⟩ | ⟨-, hopens⟩
        · exact hreleased
        · rw [hrole] at hopens
          cases hopens
      obtain ⟨-, rfl⟩ : a = .ok () ∧ w' = c.world := henv
      have hknows := hinv.knows (.client i)
      rw [hreleased] at hknows
      refine ⟨hknows.2, hknows.1, fun y => ?_⟩
      by_cases hy : .client i = y
      · rw [← hy, stage_self]
        exact ⟨nofun, nofun⟩
      · rw [stage_other hy]
        have hfree := hinv.free _ hreleased y
        constructor
        · intro hlogged
          rw [hlogged] at hfree
          cases hfree
        · intro honline
          rw [honline] at hfree
          cases hfree

/-- What `disconnect` leaves behind lasts until a client connects again. -/
theorem shut_of_run {newer older : ConnectorHistory κ} {i : κ}
    {r : Event ConnectorWorld ConnectorOp.Ans (Thrown Exc)}
    (hrun : ConnectorRun self calls rounds (newer ++ (.client i, r) :: older) c)
    (hcalm : Calm calls (newer ++ (.client i, r) :: older)) (hop : r.op = .returned)
    (hcall : calls i = .disconnect) (hnone : ¬ Reopened calls newer) :
    Shut calls (newer ++ (.client i, r) :: older) c.world := by
  induction newer generalizing c with
  | nil =>
      cases hrun with
      | cons hr hs =>
          exact (orderly_of_run hr (hcalm.of_suffix (List.suffix_cons _ _))).shut hr hs hop hcall
  | cons entry newer ih =>
      have hnewer : ¬ Reopened calls newer := by
        rintro ⟨j, ev, hmem, hbegin⟩
        exact hnone ⟨j, ev, List.mem_cons_of_mem _ hmem, hbegin⟩
      cases hrun with
      | cons hr hs =>
          have hshut := ih hr (hcalm.of_suffix (List.suffix_cons _ _)) hnewer
          refine hshut.step hr hs fun hlogs => hnewer ?_
          exact hcalm.asked _ _ _ _ _ _ List.suffix_rfl hlogs hop hcall

-- ============================================================================
-- Heartbeats
-- ============================================================================

def OneHeartbeat (w : ConnectorWorld) : Prop :=
  ∀ m n, w.tasks.Unfinished m → w.tasks.Unfinished n → m = n

/-- Once a call of `disconnect` has returned, and as long as no client has called `connect`
    or `reconnect` since, there is no heartbeat and the connector is not connected. -/
def StaysDisconnected (calls : κ → ClientCall) (h : ConnectorHistory κ) (w : ConnectorWorld) :
    Prop :=
  ∀ newer i r older, h = newer ++ (.client i, r) :: older → r.op = .returned →
    calls i = .disconnect → ¬ Reopened calls newer → AllFinished w ∧ w.connected = false

theorem heartbeat_accounted (hrun : ConnectorRun self calls rounds h c) (hcalm : Calm calls h) :
    OneHeartbeat c.world ∧ StaysDisconnected calls h c.world := by
  have hinv := orderly_of_run hrun hcalm
  constructor
  · intro m n hm hn
    have htask := hinv.single m hm
    rw [hinv.single n hn] at htask
    exact (Option.some.inj htask).symm
  · rintro newer i r older rfl hop hcall hnone
    have hshut := shut_of_run hrun hcalm hop hcall hnone
    exact ⟨hshut.finished, hshut.connected⟩

-- ============================================================================
-- Scenes
-- ============================================================================

/-- A terminal that lets everybody in, and is there afterwards or not. -/
def terminalHandler (there : Bool) (i : Actor κ) :
    Handler ConnectorWorld ConnectorOp.Ans (Thrown Exc) :=
  fun w e =>
    if e.suspends && w.tasks.interrupts i then
      some (.error .cancelled, { w with tasks := w.tasks.interrupt i })
    else match e with
      | .begin => match i with
        | .client _ => some (.ok (), w)
        | .task n => if n < w.tasks.created then some (.ok (), w) else none
      | .returned => some (.ok (), w)
      | .finish => match i with
        | .client _ => some (.ok (), w)
        | .task n => some (.ok (), { w with tasks := w.tasks.finish n })
      | .acquire => if w.locked then none else some (.ok (), { w with locked := true })
      | .release => some (.ok (), { w with locked := false })
      | .isConnected => some (.ok w.connected, w)
      | .setConnected connected => some (.ok (), { w with connected := connected })
      | .initializeMt5 .. => some (.ok true, w)
      | .login .. => some (.ok true, w)
      | .shutdown => some (.ok (), w)
      | .terminalInfo => some (.ok there, w)
      | .sleep _ => some (.ok (), w)
      | .createHeartbeat =>
          some (.ok (), { w with task := some w.tasks.created, tasks := w.tasks.create })
      | .heartbeatTask => some (.ok w.task, w)
      | .cancel n => some (.ok (), { w with tasks := w.tasks.cancel n })
      | .gather n => if w.tasks.finished n then some (.ok (), w) else none

omit [DecidableEq κ] in
theorem terminalHandler_sound (there : Bool) (i : Actor κ) (w : ConnectorWorld) (e : ConnectorOp)
    (a : Except (Thrown Exc) e.Ans) (w' : ConnectorWorld)
    (h : terminalHandler there i w e = some (a, w')) : connectorEnv i w e a w' := by
  unfold terminalHandler at h
  unfold connectorEnv
  split
  next hinterrupted =>
    rw [if_pos hinterrupted] at h
    cases h
    exact ⟨rfl, rfl⟩
  next hinterrupted =>
    rw [if_neg hinterrupted] at h
    cases e with
    | begin =>
        cases i with
        | client i =>
            cases h
            exact ⟨nofun, rfl, rfl⟩
        | task n =>
            obtain ⟨hn, heq⟩ := Option.ite_none_right_eq_some.mp h
            cases heq
            refine ⟨?_, rfl, rfl⟩
            rintro m ⟨⟩
            exact hn
    | finish =>
        cases i with
        | client i =>
            cases h
            exact ⟨rfl, rfl⟩
        | task n =>
            cases h
            exact ⟨rfl, rfl⟩
    | acquire =>
        obtain ⟨hlocked, heq⟩ := Option.ite_none_left_eq_some.mp h
        cases heq
        exact ⟨Bool.eq_false_of_not_eq_true hlocked, rfl, rfl⟩
    | gather n =>
        obtain ⟨hn, heq⟩ := Option.ite_none_right_eq_some.mp h
        cases heq
        exact ⟨hn, rfl, rfl⟩
    | initializeMt5 path timeout =>
        cases h
        exact ⟨.inl ⟨_, rfl⟩, rfl⟩
    | login accountId password server =>
        cases h
        exact ⟨.inl ⟨_, rfl⟩, rfl⟩
    | shutdown =>
        cases h
        exact ⟨.inl ⟨_, rfl⟩, rfl⟩
    | terminalInfo =>
        cases h
        exact ⟨.inl ⟨_, rfl⟩, rfl⟩
    | _ =>
        cases h
        exact ⟨rfl, rfl⟩

inductive Operator
  | opener | closer
  deriving DecidableEq

def operatorCall : Operator → ClientCall
  | .opener => .connect
  | .closer => .disconnect

def testConnector : MT5Connector where
  credentials := { accountId := 1, password := "secret", server := "demo" }

/-- One connects, and the other disconnects while the heartbeat waits. -/
def openClose : List (Actor Operator) :=
  List.replicate 9 (.client .opener) ++ List.replicate 3 (.task 0) ++
    List.replicate 4 (.client .closer) ++ List.replicate 2 (.task 0) ++
    List.replicate 5 (.client .closer)

/-- Nobody logs in after there has been a heartbeat or a call has returned. -/
def LoginsFirst (h : ConnectorHistory κ) : Prop :=
  ∀ tail ∈ h.tails, ∀ entry ∈ tail.head?, logsIn entry.2 →
    entry.2.pre.tasks.created = 0 ∧ ∀ earlier ∈ tail, earlier.2.op ≠ .returned

instance : Decidable (LoginsFirst h) :=
  inferInstanceAs (Decidable (∀ tail ∈ h.tails, ∀ entry ∈ tail.head?, _))

omit [DecidableEq κ] in
theorem LoginsFirst.calm (hlogins : LoginsFirst h) : Calm calls h := by
  constructor
  case found =>
    intro x ev older hsuf hlogs n hn
    have hnone := (hlogins _ ((List.mem_tails _ _).mpr hsuf) _ rfl hlogs).1
    have hlt := hn.1
    rw [hnone] at hlt
    exact absurd hlt (Nat.not_lt_zero _)
  case asked =>
    intro x ev newer i r older hsuf hlogs hop
    have hnone := (hlogins _ ((List.mem_tails _ _).mpr hsuf) _ rfl hlogs).2
    exact absurd hop (hnone _ (List.mem_cons_of_mem _ List.mem_append_cons_self))

theorem openClose_run :
    ∃ h c, ConnectorRun testConnector operatorCall (fun _ => 5) h c ∧
      ((∃ entry ∈ h, logsIn entry.2) ∧ ∃ entry ∈ h.head?, entry.2.op = .returned) ∧
      LoginsFirst h :=
  Config.exists_run (terminalHandler_sound true) openClose
    (fun h _ => ((∃ entry ∈ h, logsIn entry.2) ∧ ∃ entry ∈ h.head?, entry.2.op = .returned) ∧
      LoginsFirst h)
    (by decide +kernel)

theorem heartbeat_accounted_openClose :
    ∃ h c, ConnectorRun testConnector operatorCall (fun _ => 5) h c ∧
      ((∃ entry ∈ h, logsIn entry.2) ∧ ∃ entry ∈ h.head?, entry.2.op = .returned) ∧
      Calm operatorCall h ∧ OneHeartbeat c.world ∧ StaysDisconnected operatorCall h c.world := by
  obtain ⟨h, c, hrun, hdone, hlogins⟩ := openClose_run
  exact ⟨h, c, hrun, hdone, hlogins.calm, heartbeat_accounted hrun hlogins.calm⟩

/-- The heartbeat finds the terminal gone, connects again and creates another one. -/
theorem lostTerminal_run :
    ∃ h c, ConnectorRun testConnector operatorCall (fun _ => 5) h c ∧
      c.world.tasks.Unfinished 0 ∧ c.world.tasks.Unfinished 1 :=
  Config.exists_run (terminalHandler_sound false)
    (List.replicate 9 (.client .opener) ++ List.replicate 11 (.task 0))
    (fun _ c => c.world.tasks.Unfinished 0 ∧ c.world.tasks.Unfinished 1) (by decide +kernel)

theorem not_heartbeat_accounted :
    ¬ ∀ (κ : Type) [DecidableEq κ] (self : MT5Connector) (calls : κ → ClientCall)
      (rounds : ℕ → ℕ) (h : ConnectorHistory κ) (c : ConnectorConfig κ),
      ConnectorRun self calls rounds h c →
        OneHeartbeat c.world ∧ StaysDisconnected calls h c.world := by
  intro hall
  obtain ⟨h, c, hrun, hzero, hone⟩ := lostTerminal_run
  have hheart := (hall _ _ _ _ h c hrun).1
  exact absurd (hheart 0 1 hzero hone) (by decide)

end Mtrader.Connectors
