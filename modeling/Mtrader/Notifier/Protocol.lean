/-
  Mtrader.Notifier.Protocol

  What a request to `/notify` does, in every interleaving with others.

  `Progress` sums up a request's own operations.  A request sends nothing before `_limited`
  has let it pass, at most once for each of its three attempts, and nothing any more once an
  attempt has got through.
-/

import Mtrader.Coroutine.Tally
import Mtrader.Notifier.App

namespace Mtrader.Notifier

open Coroutine

-- ============================================================================
-- The protocol of a request
-- ============================================================================

/-- What a request has come to. -/
structure Progress where
  /-- What `_limited` has answered. -/
  limited : Option Bool := none
  /-- What the template has rendered to. -/
  body : Option String := none
  /-- How many sends have been tried. -/
  sends : ℕ := 0
  /-- The send of the current attempt has returned. -/
  sent : Bool := false
  /-- A send has returned, and its connection has been closed. -/
  confirmed : Bool := false
  /-- Newest first. -/
  slept : List ℚ := []
  /-- What the current attempt has last raised, or what came before the attempts. -/
  failure : Option (Thrown Exc) := none
  /-- A sleep has raised something else than a cancellation. -/
  disturbed : Bool := false
  deriving DecidableEq

/-- What an operation has raised is remembered. -/
def Progress.blame {R : Type} (p : Progress) : Except (Thrown Exc) R → Progress
  | .ok _ => p
  | .error x => { p with failure := some x }

def Progress.next (p : Progress) (e : NotifyOp) (a : Except (Thrown Exc) e.Ans) : Progress :=
  match e, a with
  | .limited _, .ok limited => { p with limited := some limited }
  | .render .., .ok body => { p with body := some body }
  | .sendMessage _, a => { p.blame a with sends := p.sends + 1, sent := a.isOk }
  | .post .., a => { p.blame a with sends := p.sends + 1, sent := a.isOk }
  | .quit, .ok _ => { p with confirmed := p.sent }
  | .close, .ok _ => { p with confirmed := p.sent }
  | .sleep seconds, .ok _ =>
      { p with slept := seconds :: p.slept, sent := false, failure := none }
  | .sleep _, .error (.exception _) => { p with disturbed := true }
  | _, a => p.blame a

/-- The request has passed, and has not yet sent anything in its current attempt. -/
structure Progress.MaySend (payload : NotifyIn) (n : Notification) (p : Progress) : Prop where
  limited : p.limited = some false
  body : p.body = some n.body
  recipient : n.recipient = payload.recipient
  confirmed : p.confirmed = false
  sends : p.sends ≤ p.slept.length
  slept : p.slept.length ≤ 2

/-- What a request may call next. -/
def notifyProtocol (payload : NotifyIn) : Discipline NotifyOp.Ans (Thrown Exc) Progress where
  may p e := match e with
    | .limited recipient => p = {} ∧ recipient = payload.recipient
    | .render template context =>
        p = { limited := some false } ∧ template = payload.template ∧ context = payload.context
    | .sendMessage msg =>
        payload.channel = "email" ∧ msg = mail payload msg.body ∧
          p.MaySend payload ⟨msg.recipient, msg.body⟩
    | .post url message =>
        (payload.channel = "sms" ∨ payload.channel = "webhook") ∧ p.MaySend payload ⟨url, message⟩
    | .sleep seconds =>
        p.limited = some false ∧ p.confirmed = false ∧ p.slept.length < 2 ∧
          seconds = 1 / 2 * 2 ^ p.slept.length
    | _ => p.limited = some false ∧ p.confirmed = false
  next := Progress.next

def Supported (channel : String) : Prop :=
  channel = "email" ∨ channel = "sms" ∨ channel = "webhook"

/-- How a request ends. -/
structure Outcome (payload : NotifyIn) (out : Except (Thrown Exc) (Option Response))
    (p : Progress) : Prop where
  begun : p ≠ {}
  /-- It answers `{"ok": True}` exactly if an attempt has got through. -/
  answered : ∀ r, out = .ok r → r = some [("ok", true)] ∧ p.confirmed ∧ Supported payload.channel
  failed : ∀ x, out = .error x → p.confirmed = false
  /-- A request that is over the limit answers 429, and does nothing else. -/
  refused : p.limited = some true →
    out = .error (.exception (.http 429 "rate limit")) ∧ p = { limited := some true }
  /-- What its template raises ends it before its first attempt. -/
  unrendered : ∀ x, out = .error (.exception x) → p.limited = some false → p.body = none →
    p = { limited := some false, failure := some (.exception x) }
  /-- Once its template is rendered it raises only what its third attempt has raised. -/
  raised : ∀ x, out = .error (.exception x) → p.body.isSome → p.disturbed = false →
    Supported payload.channel → p.slept = [1, 1 / 2] ∧ p.failure = some (.exception x)
  /-- Nothing is sent on another channel. -/
  unsupported : ¬ Supported payload.channel → p.sends = 0 ∧
    ∀ x, out = .error (.exception x) → p.body.isSome → p.disturbed = false →
      p.slept = [1, 1 / 2] ∧ x = .http 400 "unsupported channel"

-- ============================================================================
-- One attempt
-- ============================================================================

/-- The sleeps before attempt `k`, newest first. -/
def sleeps : ℕ → List ℚ
  | 0 => []
  | k + 1 => (1 / 2 * 2 ^ k) :: sleeps k

@[simp] theorem length_sleeps (k : ℕ) : (sleeps k).length = k := by
  induction k with
  | zero => rfl
  | succ k ih => simp [sleeps, ih]

variable {payload : NotifyIn} {body : String} {k : ℕ} {p : Progress}

/-- The request has made `tried` sends in its first `k` attempts, and goes on. -/
structure Trying (payload : NotifyIn) (body : String) (k tried : ℕ) (p : Progress) : Prop where
  limited : p.limited = some false
  body : p.body = some body
  confirmed : p.confirmed = false
  slept : p.slept = sleeps k
  sends : p.sends ≤ tried
  unsupported : ¬ Supported payload.channel → p.sends = 0

/-- An attempt has ended. -/
structure Tried (payload : NotifyIn) (body : String) (k : ℕ) (out : Except (Thrown Exc) Unit)
    (p : Progress) : Prop where
  limited : p.limited = some false
  body : p.body = some body
  slept : p.slept = sleeps k
  sends : p.sends ≤ k + 1
  confirmed : p.confirmed = out.isOk
  failure : ∀ x, out = .error x → Supported payload.channel → p.failure = some x
  supported : out.isOk → Supported payload.channel
  unsupported : ¬ Supported payload.channel →
    p.sends = 0 ∧ out = .error (.exception (.http 400 "unsupported channel"))

/-- An attempt that has raised goes on, or the request ends. -/
theorem Tried.trying {x : Thrown Exc} (h : Tried payload body k (.error x) p) :
    Trying payload body k (k + 1) p :=
  ⟨h.limited, h.body, h.confirmed, h.slept, h.sends, fun hno => (h.unsupported hno).1⟩

/-- A step of an attempt that raises and has not sent anything. -/
theorem Trying.tried (h : Trying payload body k k p) (hchannel : Supported payload.channel)
    (x : Thrown Exc) : Tried payload body k (.error x) { p with failure := some x } where
  limited := h.limited
  body := h.body
  slept := h.slept
  sends := Nat.le_succ_of_le h.sends
  confirmed := h.confirmed
  failure _ hy _ := congrArg some (Except.error.inj hy)
  supported := nofun
  unsupported hno := absurd hchannel hno

theorem Trying.maySend (h : Trying payload body k k p) (hk : k ≤ 2) :
    p.MaySend payload ⟨payload.recipient, body⟩ where
  limited := h.limited
  body := h.body
  recipient := rfl
  confirmed := h.confirmed
  sends := by
    have hlength : p.slept.length = k := by simp [h.slept]
    exact hlength ▸ h.sends
  slept := by simpa [h.slept] using hk

/-- The operations between a passed request's sends change nothing. -/
theorem Trying.between {tried : ℕ} (h : Trying payload body k tried p) :
    p.limited = some false ∧ p.confirmed = false := ⟨h.limited, h.confirmed⟩

/-- A send and the end of its connection. -/
theorem transfer_obeys {send done : NotifyM Unit} (h : Trying payload body k k p)
    (hchannel : Supported payload.channel)
    (hsend : send.Obeys (notifyProtocol payload)
      (fun out p' => p' = { p.blame out with sends := p.sends + 1, sent := out.isOk }) p)
    (hdone : ∀ p', p'.limited = some false ∧ p'.confirmed = false →
      done.Obeys (notifyProtocol payload)
        (fun out p'' => p'' =
          if out.isOk then { p' with confirmed := p'.sent } else p'.blame out) p') :
    (send.andFinally done).Obeys (notifyProtocol payload) (Tried payload body k) p := by
  refine Prog.obeys_andFinally (hsend.mono fun out p' hp' => ?_)
  have hbetween : p'.limited = some false ∧ p'.confirmed = false := by
    rw [hp']
    cases out <;> exact h.between
  refine (hdone p' hbetween).mono fun closed p'' hp'' => ?_
  subst hp'
  have hsends : p.sends + 1 ≤ k + 1 := Nat.succ_le_succ h.sends
  have hno : ∀ {P : Prop}, ¬ Supported payload.channel → P := fun hno => absurd hchannel hno
  cases closed with
  | ok _ =>
      rw [hp'']
      -- The attempt ends as its send has.
      cases out with
      | ok _ => exact ⟨h.limited, h.body, h.slept, hsends, rfl, nofun, fun _ => hchannel, hno⟩
      | error x =>
          exact ⟨h.limited, h.body, h.slept, hsends, rfl,
            fun _ hy _ => congrArg some (Except.error.inj hy), nofun, hno⟩
  | error x =>
      rw [hp'']
      cases out <;>
        exact ⟨h.limited, h.body, h.slept, hsends, h.confirmed,
          fun _ hy _ => congrArg some (Except.error.inj hy), nofun, hno⟩

theorem sendMail_obeys (h : Trying payload body k k p) (hk : k ≤ 2)
    (hemail : payload.channel = "email") :
    (sendMail payload body).Obeys (notifyProtocol payload) (Tried payload body k) p := by
  have hchannel : Supported payload.channel := .inl hemail
  unfold sendMail
  refine Prog.obeys_op_bind.mpr ⟨h.between, fun _ => ?_, h.tried hchannel⟩
  refine Prog.obeys_op_bind.mpr ⟨h.between, fun _ => ?_, h.tried hchannel⟩
  refine transfer_obeys h hchannel ?_ fun p' hp' => ?_
  · exact Prog.obeys_op.mpr ⟨⟨hemail, rfl, h.maySend hk⟩, fun _ => rfl⟩
  · refine Prog.obeys_op.mpr ⟨hp', fun out => ?_⟩
    rcases out with x | _ <;> rfl

theorem sendPost_obeys (h : Trying payload body k k p) (hk : k ≤ 2)
    (hhttp : payload.channel = "sms" ∨ payload.channel = "webhook") :
    (sendPost payload body).Obeys (notifyProtocol payload) (Tried payload body k) p := by
  have hchannel : Supported payload.channel := .inr hhttp
  unfold sendPost
  refine Prog.obeys_op_bind.mpr ⟨h.between, fun _ => ?_, h.tried hchannel⟩
  refine transfer_obeys h hchannel ?_ fun p' hp' => ?_
  · exact Prog.obeys_op.mpr ⟨⟨hhttp, h.maySend hk⟩, fun _ => rfl⟩
  · refine Prog.obeys_op.mpr ⟨hp', fun out => ?_⟩
    rcases out with x | _ <;> rfl

theorem send_obeys (h : Trying payload body k k p) (hk : k ≤ 2) :
    (send payload body).Obeys (notifyProtocol payload) (Tried payload body k) p := by
  unfold send
  split
  next hemail => exact sendMail_obeys h hk hemail
  next hemail =>
    split
    next hsms => exact sendPost_obeys h hk (.inl hsms)
    next hsms =>
      split
      next hwebhook => exact sendPost_obeys h hk (.inr hwebhook)
      next hwebhook =>
        have hno : ¬ Supported payload.channel := by
          simp [Supported, hemail, hsms, hwebhook]
        exact ⟨h.limited, h.body, h.slept, Nat.le_succ_of_le h.sends, h.confirmed,
          fun _ _ hyes => absurd hyes hno, nofun, fun hno => ⟨h.unsupported hno, rfl⟩⟩

-- ============================================================================
-- A request
-- ============================================================================

theorem Progress.begun {limited : Bool} (h : p.limited = some limited) : p ≠ {} := by
  rintro rfl
  cases h

/-- The attempt that gets through is the last. -/
theorem Tried.answered {u : Unit} (h : Tried payload body k (.ok u) p) :
    Outcome payload (.ok (some [("ok", true)])) p where
  begun := Progress.begun h.limited
  answered r hr := ⟨(Except.ok.inj hr).symm, h.confirmed, h.supported rfl⟩
  failed := nofun
  refused hlimited := by simp [h.limited] at hlimited
  unrendered := nofun
  raised := nofun
  unsupported hno := absurd (h.supported rfl) hno

/-- The request ends with what its last attempt has raised. -/
theorem Tried.raised {x : Thrown Exc} (h : Tried payload body 2 (.error x) p) :
    Outcome payload (.error x) p := by
  have hslept : p.slept = [1, 1 / 2] := by
    rw [h.slept]
    norm_num [sleeps]
  exact {
    begun := Progress.begun h.limited
    answered := nofun
    failed := fun _ _ => h.confirmed
    refused := fun hlimited => by simp [h.limited] at hlimited
    unrendered := fun _ _ _ hbody => by simp [h.body] at hbody
    raised := fun y hy _ _ hchannel => by
      cases hy
      exact ⟨hslept, h.failure _ rfl hchannel⟩
    unsupported := fun hno => by
      obtain ⟨hsends, hout⟩ := h.unsupported hno
      refine ⟨hsends, fun y hy _ _ => ⟨hslept, ?_⟩⟩
      exact Thrown.exception.inj ((Except.error.inj hy).symm.trans (Except.error.inj hout)) }

/-- A request that is cancelled, or that a sleep has ended. -/
theorem Trying.ended {tried : ℕ} (h : Trying payload body k tried p) {x : Thrown Exc}
    (hx : x = .cancelled ∨ p.disturbed = true) : Outcome payload (.error x) p where
  begun := Progress.begun h.limited
  answered := nofun
  failed _ _ := h.confirmed
  refused hlimited := by simp [h.limited] at hlimited
  unrendered _ _ _ hbody := by simp [h.body] at hbody
  raised y hy _ hnot := by
    cases hy
    simp [hnot] at hx
  unsupported hno := by
    refine ⟨h.unsupported hno, fun y hy _ hnot => ?_⟩
    cases hy
    simp [hnot] at hx

/-- One turn of the loop: an attempt, and where it has raised what comes after it. -/
theorem tries_cons_obeys {attempts : List ℕ} (hk : k ≤ 2)
    (hrest : k < 2 → ∀ p, Trying payload body (k + 1) (k + 1) p →
      (tries payload body attempts).Obeys (notifyProtocol payload) (Outcome payload) p)
    (h : Trying payload body k k p) :
    (tries payload body (k :: attempts)).Obeys (notifyProtocol payload) (Outcome payload) p := by
  rw [tries]
  refine Prog.obeys_tryExcept ((send_obeys h hk).seq (fun _ p' h' => h'.answered) ?_)
  intro x p' h'
  rcases x with _ | x
  · exact h'.trying.ended (.inl rfl)
  · show (if k = 2 then _ else _ : NotifyM _).Obeys _ _ _
    split
    next hlast =>
      subst hlast
      exact h'.raised
    next hlast =>
      have hlt : k < 2 := by omega
      have hslept : p'.slept.length = k := by simp [h'.slept]
      refine Prog.obeys_op_bind.mpr
        ⟨⟨h'.limited, h'.confirmed, by omega, by rw [hslept]⟩, fun _ => ?_, ?_⟩
      · refine hrest hlt _ ⟨h'.limited, h'.body, h'.confirmed, ?_, h'.sends, h'.trying.unsupported⟩
        exact congrArg ((1 / 2 * 2 ^ k) :: ·) h'.slept
      · rintro (_ | y)
        · have hended : Trying payload body k (k + 1) { p' with failure := some .cancelled } :=
            ⟨h'.limited, h'.body, h'.confirmed, h'.slept, h'.sends, h'.trying.unsupported⟩
          exact hended.ended (.inl rfl)
        · have hended : Trying payload body k (k + 1) { p' with disturbed := true } :=
            ⟨h'.limited, h'.body, h'.confirmed, h'.slept, h'.sends, h'.trying.unsupported⟩
          exact hended.ended (.inr rfl)

theorem tries_obeys (h : Trying payload body 0 0 p) :
    (tries payload body [0, 1, 2]).Obeys (notifyProtocol payload) (Outcome payload) p := by
  refine tries_cons_obeys (by omega) (fun _ p₁ h₁ => ?_) h
  refine tries_cons_obeys (by omega) (fun _ p₂ h₂ => ?_) h₁
  exact tries_cons_obeys (by omega) (fun hlt => absurd hlt (by omega)) h₂

theorem notify_obeys (payload : NotifyIn) :
    (notify payload).Obeys (notifyProtocol payload) (Outcome payload) {} := by
  -- What has happened before there is a text to send.
  have hearly : ∀ limited x, limited ≠ some true →
      Outcome payload (.error x) { limited := limited, failure := some x } :=
    fun limited x hlimited => {
      begun := by simp
      answered := nofun
      failed := fun _ _ => rfl
      refused := fun h => absurd h hlimited
      unrendered := fun y hy hpassed _ => by
        cases hy
        exact congrArg (fun limited => ({ limited := limited, failure := some (.exception y) } :
          Progress)) hpassed
      raised := nofun
      unsupported := fun _ => ⟨rfl, nofun⟩ }
  unfold notify
  refine Prog.obeys_op_bind.mpr ⟨⟨rfl, rfl⟩, fun limited => ?_, fun x => hearly none x nofun⟩
  rcases limited with _ | _
  · refine Prog.obeys_op_bind.mpr ⟨⟨rfl, rfl, rfl⟩, fun body => ?_, fun x => ?_⟩
    · exact tries_obeys ⟨rfl, rfl, rfl, rfl, le_rfl, fun _ => rfl⟩
    · exact hearly (some false) x nofun
  · exact {
      begun := Progress.begun rfl
      answered := nofun
      failed := fun _ _ => rfl
      refused := fun _ => ⟨rfl, rfl⟩
      unrendered := nofun
      raised := nofun
      unsupported := fun _ => ⟨rfl, nofun⟩ }

-- ============================================================================
-- One operation
-- ============================================================================

variable {e : NotifyOp} {a : Except (Thrown Exc) e.Ans} {w w' : World}
variable {addresses : String → List String}

@[simp] theorem Progress.sends_blame {R : Type} {out : Except (Thrown Exc) R} :
    (p.blame out).sends = p.sends := by
  cases out <;> rfl

@[simp] theorem Progress.slept_blame {R : Type} {out : Except (Thrown Exc) R} :
    (p.blame out).slept = p.slept := by
  cases out <;> rfl

variable {ι : Type} [DecidableEq ι] {suspends : NotifyOp → Bool} {i : ι}
variable {payload : ι → NotifyIn} {h h' : History ι World NotifyOp.Ans (Thrown Exc)}
variable {c : Config ι World NotifyOp.Ans (Thrown Exc) (Option Response)}

/-- A run of requests, any of which may wait at any of the operations `suspends`. -/
abbrev NotifyRun (addresses : String → List String) (suspends : NotifyOp → Bool)
    (payload : ι → NotifyIn) (h : History ι World NotifyOp.Ans (Thrown Exc))
    (c : Config ι World NotifyOp.Ans (Thrown Exc) (Option Response)) : Prop :=
  Run suspends (fun _ => notifyEnv addresses) (requests payload) h c

/-- What request `i` has come to. -/
def progress (payload : ι → NotifyIn) (h : History ι World NotifyOp.Ans (Thrown Exc)) (i : ι) :
    Progress :=
  (notifyProtocol (payload i)).ghost {} i h

theorem progress_other {j : ι} {ev : Event World NotifyOp.Ans (Thrown Exc)} (hne : j ≠ i) :
    progress payload ((j, ev) :: h) i = progress payload h i :=
  Discipline.ghost_other hne

theorem progress_self {ev : Event World NotifyOp.Ans (Thrown Exc)} :
    progress payload ((i, ev) :: h) i = (progress payload h i).next ev.op ev.ans :=
  Discipline.ghost_self

theorem may_of_run {ev : Event World NotifyOp.Ans (Thrown Exc)}
    (hrun : NotifyRun addresses suspends payload h c) (hsuffix : (i, ev) :: h' <:+ h) :
    (notifyProtocol (payload i)).may (progress payload h' i) ev.op :=
  hrun.may (notify_obeys (payload i)) hsuffix

end Mtrader.Notifier
