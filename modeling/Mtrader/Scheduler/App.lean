/-
  Mtrader.Scheduler.App

  `scheduler_service/src/app.py`: the endpoints under `/schedules` and `_execute_job`, on one
  event loop.

  - The dict of a schedule is an object: `_jobs` holds a reference to it, and so does every
    execution that has looked it up, even after the schedule was deleted.
  - Of APScheduler the model has the job store.  It may start any job that is in the store at
    any time, as often as it likes; the task runs later, so the job may be gone by then.
  - What comes from a request is never assigned again, so an execution gets it with the
    reference.
-/

import Mtrader.Coroutine.Tasks
import Mtrader.Merge.Best
import Mtrader.Py.Value

namespace Mtrader.Scheduler

open Coroutine Py

-- ============================================================================
-- Schedules
-- ============================================================================

structure ScheduleIn where
  name : String
  type : String
  cron : Option String := none
  seconds : Option ℤ := none
  timeoutSeconds : ℤ := 60
  retries : ℤ := 3
  deriving DecidableEq

/-- The dict of a schedule. -/
structure Schedule where
  payload : ScheduleIn
  id : String
  createdAt : Time
  deadLetter : Bool := false
  lastRun : Option Time := none
  deriving DecidableEq

/-- `cfg["last_run"] = …` -/
def Schedule.setLastRun (now : Time) (cfg : Schedule) : Schedule := { cfg with lastRun := some now }

/-- `cfg["dead_letter"] = True` -/
def Schedule.setDeadLetter (cfg : Schedule) : Schedule := { cfg with deadLetter := true }

inductive Trigger
  | cron (minute hour day month dow : String)
  | interval (seconds : ℤ)
  deriving DecidableEq

inductive Exc
  /-- `HTTPException(status, detail)` -/
  | http (status : ℕ) (detail : String)
  | valueError (msg : String)
  | keyError (key : String)
  | jobLookupError (id : String)
  | timeoutError
  | external (msg : String)
  deriving DecidableEq

/-- The characters that `str.split()` splits at. -/
def isSpace (c : Char) : Bool :=
  let n := c.toNat
  (9 ≤ n && n ≤ 13) || (28 ≤ n && n ≤ 32) || n = 0x85 || n = 0xa0 || n = 0x1680 ||
    (0x2000 ≤ n && n ≤ 0x200a) || n = 0x2028 || n = 0x2029 || n = 0x202f || n = 0x205f ||
    n = 0x3000

/-- `s.split()` -/
def split (s : String) : List String :=
  ((s.toList.splitOnP isSpace).filter (· ≠ [])).map String.ofList

-- ============================================================================
-- Operations
-- ============================================================================

/-- What the endpoints and the executions call. -/
inductive ScheduleOp
  /-- A request has come in. -/
  | request
  | uuid4
  | cronTrigger (minute hour day month dow : String)
  | intervalTrigger (seconds : ℤ)
  | utcnow
  /-- `_jobs[sid] = …` with a new dict -/
  | setJob (sid : String) (schedule : Schedule)
  /-- `scheduler.add_job(…, id=sid, replace_existing=True)` -/
  | addJob (sid : String) (trigger : Trigger)
  /-- The dict `_jobs[sid]`, to be sent. -/
  | readJob (sid : String)
  /-- `schedule_id in _jobs` -/
  | contains (sid : String)
  | removeJob (sid : String)
  /-- `_jobs.pop(schedule_id, None)` -/
  | popJob (sid : String)
  /-- `list(_jobs.values())` -/
  | values
  /-- The scheduler starts a task for a job. -/
  | fire
  /-- `_jobs[job_id]`, a reference -/
  | getJob (sid : String)
  /-- `asyncio.wait_for(asyncio.sleep(0.01), timeout=timeout)` -/
  | waitFor (timeout : ℤ)
  | setLastRun (ref : ℕ) (time : Time)
  | setDeadLetter (ref : ℕ)

@[reducible] def ScheduleOp.Ans : ScheduleOp → Type
  | .uuid4 => String
  | .cronTrigger .. => Trigger
  | .intervalTrigger _ => Trigger
  | .utcnow => Time
  | .readJob _ => Schedule
  | .contains _ => Bool
  | .values => List Schedule
  | .fire => String
  | .getJob _ => ℕ × ScheduleIn
  | _ => Unit

/-- The operations that give up the loop. -/
def ScheduleOp.suspends : ScheduleOp → Bool
  | .request => true
  | .fire => true
  | .getJob _ => true
  | .waitFor _ => true
  | _ => false

abbrev ScheduleM : Type → Type := Prog ScheduleOp.Ans (Thrown Exc)

abbrev perform (e : ScheduleOp) : ScheduleM e.Ans := Prog.op e

def raise {R : Type} (x : Exc) : ScheduleM R := Prog.raise (.exception x)

-- ============================================================================
-- Endpoints
-- ============================================================================

/-- The trigger that a request asks for. -/
def trigger (payload : ScheduleIn) : ScheduleM Trigger :=
  if payload.type = "cron" then
    match payload.cron with
    | none => raise (.http 400 "cron expression required")
    | some cron =>
        if cron = "" then raise (.http 400 "cron expression required")
        else match split cron with
          | [minute, hour, day, month, dow] => perform (.cronTrigger minute hour day month dow)
          | fields =>
              if fields.length < 5 then
                raise (.valueError
                  s!"not enough values to unpack (expected 5, got {fields.length})")
              else raise (.valueError "too many values to unpack (expected 5)")
  else if payload.type = "interval" then
    match payload.seconds with
    | none => raise (.http 400 "seconds required")
    | some seconds =>
        if seconds = 0 then raise (.http 400 "seconds required")
        else perform (.intervalTrigger seconds)
  else raise (.http 400 "unsupported schedule type")

def createSchedule (payload : ScheduleIn) : ScheduleM Schedule := do
  let sid ← perform .uuid4
  let trigger ← trigger payload
  let now ← perform .utcnow
  perform (.setJob sid { payload := payload, id := sid, createdAt := now })
  perform (.addJob sid trigger)
  perform (.readJob sid)

/-- `{"ok": True}` -/
def deleteSchedule (scheduleId : String) : ScheduleM (List (String × Bool)) := do
  if ← perform (.contains scheduleId) then
    perform (.removeJob scheduleId)
    perform (.popJob scheduleId)
    return [("ok", true)]
  else raise (.http 404 "not found")

def listSchedules : ScheduleM (List Schedule) := perform .values

-- ============================================================================
-- Executions
-- ============================================================================

/-- The loop over the attempts. -/
def attempts (ref : ℕ) (cfg : ScheduleIn) : List ℕ → ScheduleM Unit
  | [] => pure ()
  | attempt :: rest => do
      let returned ← Prog.tryExcept (do
        perform (.waitFor cfg.timeoutSeconds)
        let now ← perform .utcnow
        perform (.setLastRun ref now)
        return true) fun _ => do
          if (attempt : ℤ) = cfg.retries - 1 then perform (.setDeadLetter ref)
          return false
      if returned then pure () else attempts ref cfg rest

def executeJob (jobId : String) : ScheduleM Unit := do
  let (ref, cfg) ← perform (.getJob jobId)
  attempts ref cfg (List.range cfg.retries.toNat)

-- ============================================================================
-- The world
-- ============================================================================

structure World where
  /-- The dicts that have been created, by reference. -/
  dicts : ℕ → Schedule
  created : ℕ
  /-- `_jobs`, in insertion order. -/
  jobs : List (String × ℕ)
  /-- The job store of the scheduler. -/
  store : String → Option Trigger

/-- `sid in _jobs` -/
def World.Listed (w : World) (sid : String) : Prop := sid ∈ w.jobs.map Prod.fst

instance (w : World) (sid : String) : Decidable (w.Listed sid) :=
  inferInstanceAs (Decidable (sid ∈ w.jobs.map Prod.fst))

/-- The reference under `_jobs[sid]`. -/
def World.ref (w : World) (sid : String) : Option ℕ :=
  (Merge.lookup Prod.fst w.jobs sid).map Prod.snd

def World.setJob (w : World) (sid : String) (schedule : Schedule) : World :=
  { w with
    dicts := Function.update w.dicts w.created schedule
    created := w.created + 1
    jobs := Merge.put Prod.fst w.jobs (sid, w.created) }

def World.popJob (w : World) (sid : String) : World :=
  { w with jobs := w.jobs.filter fun job => job.1 ≠ sid }

def World.setStore (w : World) (sid : String) (trigger : Option Trigger) : World :=
  { w with store := Function.update w.store sid trigger }

def World.assign (w : World) (ref : ℕ) (f : Schedule → Schedule) : World :=
  { w with dicts := Function.update w.dicts ref (f (w.dicts ref)) }

/-- What is there where nothing has been created. -/
def noSchedule : Schedule where
  payload := { name := "", type := "" }
  id := ""
  createdAt := 0

def World.empty : World where
  dicts _ := noSchedule
  created := 0
  jobs := []
  store _ := none

/-- `KeyError(sid)`, or what is under the key. -/
def World.item {α : Type} (w : World) (sid : String) (f : ℕ → α) : Except (Thrown Exc) α :=
  match w.ref sid with
  | some ref => .ok (f ref)
  | none => .error (.exception (.keyError sid))

/-- What the operations do. -/
def scheduleEnv : Env World ScheduleOp.Ans (Thrown Exc)
  | w, .request, a, w' => a = .ok () ∧ w' = w
  | w, .uuid4, a, w' => (∃ sid, a = .ok sid) ∧ w' = w
  | w, .cronTrigger minute hour day month dow, a, w' =>
      (a = .ok (.cron minute hour day month dow) ∨ ∃ x, a = .error (.exception x)) ∧ w' = w
  | w, .intervalTrigger seconds, a, w' =>
      (a = .ok (.interval seconds) ∨ ∃ x, a = .error (.exception x)) ∧ w' = w
  | w, .utcnow, a, w' => (∃ now, a = .ok now) ∧ w' = w
  | w, .setJob sid schedule, a, w' => a = .ok () ∧ w' = w.setJob sid schedule
  | w, .addJob sid trigger, a, w' =>
      a = .ok () ∧ w' = w.setStore sid (some trigger) ∨ (∃ x, a = .error (.exception x)) ∧ w' = w
  | w, .readJob sid, a, w' => a = w.item sid w.dicts ∧ w' = w
  | w, .contains sid, a, w' => a = .ok (decide (w.Listed sid)) ∧ w' = w
  | w, .removeJob sid, a, w' =>
      if (w.store sid).isSome then a = .ok () ∧ w' = w.setStore sid none
      else a = .error (.exception (.jobLookupError sid)) ∧ w' = w
  | w, .popJob sid, a, w' => a = .ok () ∧ w' = w.popJob sid
  | w, .values, a, w' => a = .ok (w.jobs.map fun job => w.dicts job.2) ∧ w' = w
  | w, .fire, a, w' => (∃ sid, (w.store sid).isSome ∧ a = .ok sid) ∧ w' = w
  | w, .getJob sid, a, w' => a = w.item sid (fun ref => (ref, (w.dicts ref).payload)) ∧ w' = w
  | w, .waitFor timeout, a, w' =>
      (a = .ok () ∧ 0 < timeout ∨ a = .error (.exception .timeoutError) ∨
        a = .error .cancelled) ∧ w' = w
  | w, .setLastRun ref now, a, w' =>
      a = .ok () ∧ w' = w.assign ref (Schedule.setLastRun now)
  | w, .setDeadLetter ref, a, w' =>
      a = .ok () ∧ w' = w.assign ref Schedule.setDeadLetter

-- ============================================================================
-- Calls
-- ============================================================================

/-- A request, or a task of the scheduler. -/
inductive ScheduleCall
  | create (payload : ScheduleIn)
  | delete (scheduleId : String)
  | list
  | execution

/-- What a call gives back. -/
inductive Response
  | schedule (schedule : Schedule)
  | done (body : List (String × Bool))
  | schedules (schedules : List Schedule)
  | nothing

def ScheduleCall.prog : ScheduleCall → ScheduleM Response
  | .create payload => do
      perform .request
      return .schedule (← createSchedule payload)
  | .delete scheduleId => do
      perform .request
      return .done (← deleteSchedule scheduleId)
  | .list => do
      perform .request
      return .schedules (← listSchedules)
  | .execution => do
      let jobId ← perform .fire
      executeJob jobId
      return .nothing

/-- A started service. -/
def started {ι : Type} (calls : ι → ScheduleCall) :
    Config ι World ScheduleOp.Ans (Thrown Exc) Response where
  world := .empty
  pool i := (calls i).prog

end Mtrader.Scheduler
