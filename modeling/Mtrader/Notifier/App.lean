/-
  Mtrader.Notifier.App

  `notifier_service/src/app.py`: the endpoint `/notify`, with any number of requests on one
  event loop.

  - What a mail server or another service has accepted is `received`.  A send that raised may
    have been accepted all the same, so it may have left its notification or not.
  - `send_message` takes the addresses of a mail from the text of its `To`, with
    `email.utils.getaddresses`; the mail server may refuse some of them.
  - `Thrown.cancelled` is `asyncio.CancelledError`, which `except Exception` does not catch.
-/

import Mtrader.Coroutine.Tasks
import Mtrader.Gateway.World

namespace Mtrader.Notifier

open Coroutine

-- ============================================================================
-- Requests
-- ============================================================================

structure NotifyIn where
  channel : String
  recipient : String
  template : String
  context : List (String × Gateway.Json)

inductive Exc
  /-- `HTTPException(status, detail)` -/
  | http (status : ℕ) (detail : String)
  | external (msg : String)
  deriving DecidableEq

/-- A `MIMEText` with its headers. -/
structure Mail where
  subject : String
  sender : String
  recipient : String
  body : String
  deriving DecidableEq

-- ============================================================================
-- Operations
-- ============================================================================

/-- What the endpoint calls. -/
inductive NotifyOp
  /-- `_limited(recipient)` -/
  | limited (recipient : String)
  /-- `Template(template).render(**context)` -/
  | render (template : String) (context : List (String × Gateway.Json))
  | mimeText (body : String)
  /-- `smtplib.SMTP("localhost", 25, timeout=5)`, and the end of its `with`. -/
  | smtp
  | quit
  | sendMessage (msg : Mail)
  /-- `httpx.AsyncClient(timeout=5)`, and the end of its `async with`. -/
  | client
  | close
  /-- `c.post(url, json={"message": message})` -/
  | post (url message : String)
  | sleep (seconds : ℚ)

@[reducible] def NotifyOp.Ans : NotifyOp → Type
  | .limited _ => Bool
  | .render .. => String
  | _ => Unit

abbrev NotifyM : Type → Type := Prog NotifyOp.Ans (Thrown Exc)

abbrev perform (e : NotifyOp) : NotifyM e.Ans := Prog.op e

/-- `raise HTTPException(status, detail)` -/
def http {R : Type} (status : ℕ) (detail : String) : NotifyM R :=
  Prog.raise (.exception (.http status detail))

-- ============================================================================
-- The endpoint
-- ============================================================================

def mail (payload : NotifyIn) (body : String) : Mail where
  subject := "MTrader Notification"
  sender := "noreply@mtrader.local"
  recipient := payload.recipient
  body := body

def sendMail (payload : NotifyIn) (body : String) : NotifyM Unit := do
  perform (.mimeText body)
  perform .smtp
  Prog.andFinally (perform (.sendMessage (mail payload body))) (perform .quit)

def sendPost (payload : NotifyIn) (body : String) : NotifyM Unit := do
  perform .client
  Prog.andFinally (perform (.post payload.recipient body)) (perform .close)

/-- The body of the `try`, before its `return`. -/
def send (payload : NotifyIn) (body : String) : NotifyM Unit :=
  if payload.channel = "email" then sendMail payload body
  else if payload.channel = "sms" then sendPost payload body
  else if payload.channel = "webhook" then sendPost payload body
  else http 400 "unsupported channel"

/-- `{"ok": True}` -/
abbrev Response : Type := List (String × Bool)

/-- `for attempt in attempts`; a loop that runs out returns `None`. -/
def tries (payload : NotifyIn) (body : String) : List ℕ → NotifyM (Option Response)
  | [] => pure none
  | attempt :: attempts =>
      Prog.tryExcept (do
        send payload body
        return some [("ok", true)]) fun x => do
          if attempt = 2 then Prog.raise (.exception x)
          else do
            perform (.sleep (1 / 2 * 2 ^ attempt))
            tries payload body attempts

def notify (payload : NotifyIn) : NotifyM (Option Response) := do
  if ← perform (.limited payload.recipient) then http 429 "rate limit"
  else do
    let body ← perform (.render payload.template payload.context)
    tries payload body [0, 1, 2]

-- ============================================================================
-- The world
-- ============================================================================

structure Notification where
  recipient : String
  body : String
  deriving DecidableEq

structure World where
  /-- `RATE`; a recipient that is not in it has 0. -/
  rate : String → ℕ := fun _ => 0
  /-- What has been accepted for delivery, newest first. -/
  received : List Notification := []

/-- `RATE[recipient] = RATE.get(recipient, 0) + 1` -/
def World.count (w : World) (recipient : String) : World :=
  { w with rate := Function.update w.rate recipient (w.rate recipient + 1) }

def World.receive (w : World) (accepted : List Notification) : World :=
  { w with received := accepted ++ w.received }

/-- What the operation sends, and to which `To` or URL. -/
def NotifyOp.sends : NotifyOp → Option Notification
  | .sendMessage msg => some ⟨msg.recipient, msg.body⟩
  | .post url message => some ⟨url, message⟩
  | _ => none

/-- The notifications that the operation asks to be delivered, one for each address. -/
def NotifyOp.reaches (addresses : String → List String) : NotifyOp → List Notification
  | .sendMessage msg => (addresses msg.recipient).map fun address => ⟨address, msg.body⟩
  | .post url message => [⟨url, message⟩]
  | _ => []

/-- A send that has returned has been accepted for some address at least, one that has raised
    may have been. -/
def notifyEnv (addresses : String → List String) : Env World NotifyOp.Ans (Thrown Exc)
  | w, .limited recipient, a, w' =>
      a = .ok (60 < (w.count recipient).rate recipient) ∧ w' = w.count recipient
  | w, .sleep _, a, w' => (a = .ok () ∨ a = .error .cancelled) ∧ w' = w
  | w, e, a, w' => ∃ accepted, accepted.Sublist (e.reaches addresses) ∧
      (e.sends.isSome → a.isOk → accepted ≠ []) ∧ w' = w.receive accepted

/-- Requests that come in on a started service. -/
def requests {ι : Type} (payload : ι → NotifyIn) :
    Config ι World NotifyOp.Ans (Thrown Exc) (Option Response) where
  world := {}
  pool i := notify (payload i)

end Mtrader.Notifier
