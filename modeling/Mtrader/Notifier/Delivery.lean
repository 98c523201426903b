/-
  Mtrader.Notifier.Delivery

  What the requests to `/notify` send and deliver, all of them together.

  Since `RATE` only grows, the first 60 requests for a recipient are all that ever pass, and
  what an address gets is bounded by what these may send to it.
-/

import Mtrader.Notifier.Protocol

namespace Mtrader.Notifier

open Coroutine

variable {p : Progress} {e : NotifyOp} {a : Except (Thrown Exc) e.Ans} {w w' : World}
variable {addresses : String → List String} {ι : Type} [DecidableEq ι]
variable {suspends : NotifyOp → Bool} {i : ι} {payload : ι → NotifyIn}
variable {h h' : History ι World NotifyOp.Ans (Thrown Exc)}
variable {c : Config ι World NotifyOp.Ans (Thrown Exc) (Option Response)}

-- ============================================================================
-- One operation
-- ============================================================================

/-- The addresses or the URL that a request is for. -/
def NotifyIn.reaches (addresses : String → List String) (payload : NotifyIn) : List String :=
  if payload.channel = "email" then addresses payload.recipient else [payload.recipient]

/-- The operation asks for the recipient whether it is limited. -/
def asks (recipient : String) (ev : Event World NotifyOp.Ans (Thrown Exc)) : Bool :=
  match ev with
  | ⟨_, .limited asked, _⟩ => asked = recipient
  | _ => false

/-- What `_limited` answers. -/
def verdict (e : NotifyOp) (a : Except (Thrown Exc) e.Ans) : Option Bool :=
  match e, a with
  | .limited _, .ok limited => some limited
  | _, _ => none

/-- The operation is told that the recipient is not limited. -/
def passes (recipient : String) (ev : Event World NotifyOp.Ans (Thrown Exc)) : Bool :=
  asks recipient ev && verdict ev.op ev.ans = some false

/-- The requests that have passed. -/
def passed (h : History ι World NotifyOp.Ans (Thrown Exc)) : Finset ι :=
  performers (fun ev => verdict ev.op ev.ans = some false) h

end Mtrader.Notifier
