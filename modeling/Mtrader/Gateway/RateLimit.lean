/-
  Mtrader.Gateway.RateLimit

  `WebSocketRateLimiter` of `middleware/rate_limit.py` against the plain count of the
  calls in a sliding window.

  The sorted set of a key holds the clock readings of the calls in the window, each
  under its own text.  So calls that read the same time are one member, and what is
  compared with the limit is the number of different readings.
-/

import Mtrader.Gateway.World
import Mtrader.Window.Sliding
import Mathlib.Algebra.Order.Field.Rat

namespace Mtrader.Gateway

open Py Coroutine Collection Sliding

/-- The dataclass `WebSocketRateLimiter`. -/
structure WebSocketRateLimiter where
  connectionsPerIp : ℕ := 20
  messagesPerMinute : ℕ := 600
  maxSubscriptions : ℕ := 100
  windowSeconds : ℕ := 60
  deriving DecidableEq, Repr

namespace WebSocketRateLimiter

variable (limiter : WebSocketRateLimiter)

/-- The pipeline of a check at time `now`. -/
def commands (now : ℚ) : List ZCommand :=
  [.zremrangebyscore 0 (now - limiter.windowSeconds), .zadd now now, .zcard,
    .expire limiter.windowSeconds]

/-- The body of `check_connection_limit` and of `check_message_rate`. -/
def checkWindow (key : Key) (limit : ℕ) : GatewayM Bool := do
  let now ← perform .time
  let counts ← perform (.pipeline key (limiter.commands now))
  match counts with
  | [_, _, count, _] => return count ≤ limit
  | _ => Prog.raise (.valueError "not enough values to unpack")

def checkConnectionLimit (clientIp : String) : GatewayM Bool :=
  limiter.checkWindow (.connIp clientIp) limiter.connectionsPerIp

def checkMessageRate (connectionId : String) : GatewayM Bool :=
  limiter.checkWindow (.msg connectionId) limiter.messagesPerMinute

def checkSubscriptionLimit (userId : String) : GatewayM Bool := do
  let cnt ← perform (.scard (.subs userId))
  return cnt ≤ limiter.maxSubscriptions

end WebSocketRateLimiter

-- ============================================================================
-- One call
-- ============================================================================

/-- What a check leaves of the members of a key. -/
def recorded (window now : ℚ) (z : ZSet ℚ ℚ) : ZSet ℚ ℚ :=
  (z.removeScores 0 (now - window)).add now now

theorem recorded_ne_empty {window now : ℚ} {z : ZSet ℚ ℚ} : recorded window now z ≠ ∅ := by
  intro h
  have hmem : (now, now) ∈ (recorded window now z).entries := ZSet.mem_add.mpr (.inl rfl)
  rw [h] at hmem
  exact Finset.notMem_empty _ hmem

section

variable {limiter : WebSocketRateLimiter} {w : World} {key : Key} {now : ℚ}

/-- The third answer of the pipeline is the number of recorded members. -/
theorem runPipeline_commands (now : ℚ) (hw : 0 < limiter.windowSeconds) (k : Held ℚ (ZSet ℚ ℚ)) :
    ∃ removed added set, runPipeline now (limiter.commands now) k =
      ([removed, added, (recorded limiter.windowSeconds now (k.read now)).card, set],
        ⟨recorded limiter.windowSeconds now (k.read now), some (now + limiter.windowSeconds)⟩) := by
  have hpos : (0 : ℚ) < limiter.windowSeconds := Nat.cast_pos.mpr hw
  let pruned := k.write now (·.removeScores 0 (now - limiter.windowSeconds))
  let grown := pruned.write now (·.add now now)
  have hread : grown.read now = recorded limiter.windowSeconds now (k.read now) := by
    rw [Held.read_write, Held.read_write]
    rfl
  have hexpire : grown.expire now limiter.windowSeconds =
      ⟨recorded limiter.windowSeconds now (k.read now), some (now + limiter.windowSeconds)⟩ := by
    rw [Held.expire, hread, if_neg]
    rintro (hempty | hle)
    · exact recorded_ne_empty hempty
    · exact absurd hle (not_le_of_gt hpos)
  refine ⟨(k.read now).card - (pruned.read now).card,
    (grown.read now).card - (pruned.read now).card, if grown.read now = ∅ then 0 else 1, ?_⟩
  rw [← hexpire, ← hread]
  rfl

/-- A check answers by the number of recorded members. -/
theorem exec_checkWindow (hw : 0 < limiter.windowSeconds) {limit : ℕ} {out : Except Exc Bool}
    {t' : Trail World GatewayOp.Ans Exc}
    (h : Exec gatewayEnv ⟨w, []⟩ (limiter.checkWindow key limit) out t') :
    out = .ok (decide ((recorded limiter.windowSeconds w.now
        ((w.zsets key).read w.now)).card ≤ limit)) ∧
      t'.world = w.setZset key ⟨recorded limiter.windowSeconds w.now ((w.zsets key).read w.now),
        some (w.now + limiter.windowSeconds)⟩ := by
  obtain ⟨removed, added, set, hrun⟩ := runPipeline_commands w.now hw (w.zsets key)
  refine h.sound (Q := fun out t' => out = .ok _ ∧ t'.world = _) ?_
  unfold WebSocketRateLimiter.checkWindow
  have htime : ∀ a w', gatewayEnv w .time a w' ↔ a = .ok w.now ∧ w' = w := fun _ _ => Iff.rfl
  rw [wp_op_bind_of_answer htime]
  rw [wp_op_bind_of_answer (fun _ _ => Iff.rfl)]
  rw [Trail.record_world, hrun]
  exact ⟨rfl, rfl⟩

end

-- ============================================================================
-- Runs of calls
-- ============================================================================

/-- A call of the limiter, or a clock step. -/
inductive LimiterCall
  | checkConnectionLimit (clientIp : String)
  | checkMessageRate (connectionId : String)
  | tick (seconds : ℚ≥0)

/-- The key that a call counts under. -/
def LimiterCall.key : LimiterCall → Option Key
  | .checkConnectionLimit clientIp => some (.connIp clientIp)
  | .checkMessageRate connectionId => some (.msg connectionId)
  | .tick _ => none

/-- What the calls of a key are limited to. -/
def WebSocketRateLimiter.limit (limiter : WebSocketRateLimiter) : Key → ℕ
  | .connIp _ => limiter.connectionsPerIp
  | .msg _ => limiter.messagesPerMinute
  | _ => 0

def LimiterCall.prog (limiter : WebSocketRateLimiter) : LimiterCall → GatewayM (Option Bool)
  | .checkConnectionLimit clientIp => do return some (← limiter.checkConnectionLimit clientIp)
  | .checkMessageRate connectionId => do return some (← limiter.checkMessageRate connectionId)
  | .tick seconds => do
      perform (.tick seconds)
      return none

abbrev LimiterEntry : Type := Call LimiterCall World GatewayOp.Ans Exc (Option Bool)

/-- Calls made one after the other on an empty Redis, newest first. -/
abbrev LimiterRun (limiter : WebSocketRateLimiter) (t₀ : ℚ≥0) :
    List LimiterEntry → World → Prop :=
  Serial gatewayEnv (LimiterCall.prog limiter) { clock := t₀ }

/-- The calls for a key. -/
def checks (key : Key) (cs : List LimiterEntry) : List LimiterEntry :=
  cs.filter fun c => c.call.key = some key

/-- The clock reading of a call. -/
def reading (c : LimiterEntry) : ℚ := c.pre.now

/-- The clock readings of the calls for a key. -/
def readings (key : Key) (cs : List LimiterEntry) : List ℚ := (checks key cs).map reading

variable {limiter : WebSocketRateLimiter} {w : World} {key : Key} {now : ℚ}
variable {cs : List LimiterEntry} {c : LimiterEntry} {call : LimiterCall} {t₀ : ℚ≥0}

theorem checks_cons_of (h : c.call.key = some key) : checks key (c :: cs) = c :: checks key cs :=
  List.filter_cons_of_pos (decide_eq_true h)

theorem checks_cons_of_ne (h : c.call.key ≠ some key) : checks key (c :: cs) = checks key cs :=
  List.filter_cons_of_neg fun hd => h (of_decide_eq_true hd)

theorem readings_cons_of (h : c.call.key = some key) :
    readings key (c :: cs) = reading c :: readings key cs := by
  rw [readings, checks_cons_of h]
  rfl

theorem readings_cons_of_ne (h : c.call.key ≠ some key) :
    readings key (c :: cs) = readings key cs := by
  rw [readings, checks_cons_of_ne h]
  rfl

theorem exec_check (hw : 0 < limiter.windowSeconds) (hkey : call.key = some key)
    {out : Except Exc (Option Bool)} {t' : Trail World GatewayOp.Ans Exc}
    (h : Exec gatewayEnv ⟨w, []⟩ (call.prog limiter) out t') :
    out = .ok (some (decide ((recorded limiter.windowSeconds w.now
        ((w.zsets key).read w.now)).card ≤ limiter.limit key))) ∧
      t'.world = w.setZset key ⟨recorded limiter.windowSeconds w.now ((w.zsets key).read w.now),
        some (w.now + limiter.windowSeconds)⟩ := by
  -- Both checks are `checkWindow` and wrap its answer.
  have hwrap : ∀ {limit : ℕ}, Exec gatewayEnv ⟨w, []⟩
      (limiter.checkWindow key limit >>= fun b => Prog.ret (some b)) out t' →
      out = .ok (some (decide ((recorded limiter.windowSeconds w.now
          ((w.zsets key).read w.now)).card ≤ limit))) ∧
        t'.world = w.setZset key ⟨recorded limiter.windowSeconds w.now
          ((w.zsets key).read w.now), some (w.now + limiter.windowSeconds)⟩ := by
    intro limit hex
    rcases hex.bind_inv with ⟨b, t₁, hcheck, hret⟩ | ⟨x, -, hcheck⟩
    · obtain ⟨hb, hworld⟩ := exec_checkWindow hw hcheck
      cases hb
      cases hret
      exact ⟨rfl, hworld⟩
    · obtain ⟨hb, -⟩ := exec_checkWindow hw hcheck
      cases hb
  cases call with
  | checkConnectionLimit clientIp =>
      cases hkey
      exact hwrap h
  | checkMessageRate connectionId =>
      cases hkey
      exact hwrap h
  | tick seconds => cases hkey

theorem exec_tick (hkey : call.key = none) {out : Except Exc (Option Bool)}
    {t' : Trail World GatewayOp.Ans Exc} (h : Exec gatewayEnv ⟨w, []⟩ (call.prog limiter) out t') :
    ∃ seconds, t'.world = w.later seconds := by
  cases call with
  | tick seconds =>
      refine ⟨seconds, h.sound (Q := fun _ t' => t'.world = w.later seconds) ?_⟩
      exact (wp_op_bind_of_answer fun _ _ => Iff.rfl).mpr rfl
  | checkConnectionLimit clientIp => cases hkey
  | checkMessageRate connectionId => cases hkey

-- ============================================================================
-- What the sorted sets hold
-- ============================================================================

/-- The sorted set of a key holds the readings of its calls, each as its own score; the
    recent ones are all there, and the key outlives them. -/
structure Kept (window : ℚ) (times : List ℚ) (k : Held ℚ (ZSet ℚ ℚ)) (now : ℚ) : Prop where
  entry : ∀ p ∈ k.value.entries, p.2 = p.1 ∧ 0 ≤ p.1 ∧ p.1 ∈ times
  recent : ∀ t ∈ times, now - window < t → (t, t) ∈ k.value.entries
  lasting : ∀ d, k.deadline = some d → ∀ t ∈ times, t + window ≤ d
  past : ∀ t ∈ times, t ≤ now

variable {window : ℚ} {times : List ℚ} {k : Held ℚ (ZSet ℚ ℚ)} {now' : ℚ}

theorem Kept.absent : Kept window [] .absent now where
  entry _ hp := absurd hp (Finset.notMem_empty _)
  recent _ ht := nomatch ht
  lasting _ hd := nomatch hd
  past _ ht := nomatch ht

theorem Kept.later (h : Kept window times k now) (hle : now ≤ now') :
    Kept window times k now' := by
  refine ⟨h.entry, ?_, h.lasting, fun t ht => (h.past t ht).trans hle⟩
  intro t ht hlt
  exact h.recent t ht (by linarith)

/-- The members of the window, as the key shows them now. -/
theorem Kept.mem_read (h : Kept window times k now) {p : ℚ × ℚ} (hp : now - window < p.1) :
    p ∈ (k.read now).entries ↔ p.2 = p.1 ∧ p.1 ∈ times := by
  -- Within the window the key has not expired.
  have hread : p.1 ∈ times → k.read now = k.value := by
    intro ht
    cases hd : k.deadline with
    | none => exact Held.read_of_none hd
    | some d =>
        have hlasting := h.lasting d hd p.1 ht
        rw [Held.read_of_some hd]
        exact if_neg (by linarith)
  constructor
  · intro hmem
    have hvalue : p ∈ k.value.entries := by
      cases hd : k.deadline with
      | none => rwa [Held.read_of_none hd] at hmem
      | some d =>
          rw [Held.read_of_some hd] at hmem
          split at hmem
          next => exact absurd hmem (Finset.notMem_empty _)
          next => exact hmem
    exact ⟨(h.entry p hvalue).1, (h.entry p hvalue).2.2⟩
  · rintro ⟨heq, ht⟩
    have hdiag : p = (p.1, p.1) := Prod.ext rfl heq
    rw [hread ht, hdiag]
    exact h.recent p.1 ht hp

theorem Kept.nonneg (h : Kept window times k now) {p : ℚ × ℚ} (hp : p ∈ (k.read now).entries) :
    p.2 = p.1 ∧ 0 ≤ p.1 := by
  cases hd : k.deadline with
  | none =>
      rw [Held.read_of_none hd] at hp
      exact ⟨(h.entry p hp).1, (h.entry p hp).2.1⟩
  | some d =>
      rw [Held.read_of_some hd] at hp
      split at hp
      next => exact absurd hp (Finset.notMem_empty _)
      next => exact ⟨(h.entry p hp).1, (h.entry p hp).2.1⟩

/-- A check records the readings of its window. -/
theorem Kept.mem_recorded (h : Kept window times k now) (hwindow : 0 < window) {p : ℚ × ℚ} :
    p ∈ (recorded window now (k.read now)).entries ↔
      p.2 = p.1 ∧ p.1 ∈ Sliding.window window now (now :: times) := by
  rw [recorded, ZSet.mem_add, ZSet.mem_removeScores, mem_window, List.mem_cons]
  constructor
  · rintro (rfl | ⟨⟨hp, hscore⟩, -⟩)
    · exact ⟨rfl, .inl rfl, by linarith, le_rfl⟩
    · obtain ⟨heq, hnonneg⟩ := h.nonneg hp
      have hlt : now - window < p.1 := by
        rw [heq] at hscore
        by_contra hle
        exact hscore ⟨hnonneg, not_lt.mp hle⟩
      obtain ⟨-, ht⟩ := (h.mem_read hlt).mp hp
      exact ⟨heq, .inr ht, hlt, h.past _ ht⟩
  · rintro ⟨heq, ht, hlt, hle⟩
    by_cases hnow : p.1 = now
    · left
      exact Prod.ext hnow (heq.trans hnow)
    · right
      rcases ht with ht | ht
      · exact absurd ht hnow
      · refine ⟨⟨(h.mem_read hlt).mpr ⟨heq, ht⟩, fun hscore => ?_⟩, hnow⟩
        rw [heq] at hscore
        exact absurd hlt (not_lt.mpr hscore.2)

/-- A check counts the different readings of its window. -/
theorem Kept.card_recorded (h : Kept window times k now) (hwindow : 0 < window) :
    (recorded window now (k.read now)).card =
      (Sliding.window window now (now :: times)).toFinset.card := by
  have hdiag : (recorded window now (k.read now)).entries =
      (Sliding.window window now (now :: times)).toFinset.image fun t => (t, t) := by
    ext p
    rw [h.mem_recorded hwindow, Finset.mem_image]
    constructor
    · rintro ⟨heq, ht⟩
      exact ⟨p.1, List.mem_toFinset.mpr ht, Prod.ext rfl heq.symm⟩
    · rintro ⟨t, ht, rfl⟩
      exact ⟨rfl, List.mem_toFinset.mp ht⟩
  rw [ZSet.card, hdiag, Finset.card_image_of_injective]
  intro t t' heq
  exact congrArg Prod.fst heq

theorem Kept.check (h : Kept window times k now) (hwindow : 0 < window) (hnow : 0 ≤ now) :
    Kept window (now :: times) ⟨recorded window now (k.read now), some (now + window)⟩ now := by
  have hpast : ∀ t ∈ now :: times, t ≤ now := by
    intro t ht
    rcases List.mem_cons.mp ht with rfl | ht
    · exact le_rfl
    · exact h.past t ht
  refine ⟨?_, ?_, ?_, hpast⟩
  · intro p hp
    obtain ⟨heq, ht⟩ := (h.mem_recorded hwindow).mp hp
    have hmem := (mem_window.mp ht).1
    refine ⟨heq, ?_, hmem⟩
    rcases List.mem_cons.mp hmem with hp | hp
    · rw [hp]
      exact hnow
    · have hold := (h.mem_read (mem_window.mp ht).2.1).mpr ⟨heq, hp⟩
      exact (h.nonneg hold).2
  · intro t ht hlt
    exact (h.mem_recorded hwindow).mpr ⟨rfl, mem_window.mpr ⟨ht, hlt, hpast t ht⟩⟩
  · intro d hd t ht
    cases hd
    exact add_le_add_left (hpast t ht) window

theorem kept_of_run (hw : 0 < limiter.windowSeconds) (hrun : LimiterRun limiter t₀ cs w)
    (key : Key) : Kept limiter.windowSeconds (readings key cs) (w.zsets key) w.now := by
  have hpos : (0 : ℚ) < limiter.windowSeconds := Nat.cast_pos.mpr hw
  refine hrun.invariant (I := fun cs w =>
    Kept limiter.windowSeconds (readings key cs) (w.zsets key) w.now) Kept.absent ?_
  intro cs w call out t' _ hkept hex
  cases hkey : call.key with
  | none =>
      obtain ⟨seconds, hworld⟩ := exec_tick hkey hex
      have hne : call.key ≠ some key := by
        rw [hkey]
        exact nofun
      rw [readings_cons_of_ne hne, hworld]
      exact hkept.later (w.now_le_later seconds)
  | some key' =>
      obtain ⟨-, hworld⟩ := exec_check hw hkey hex
      rw [hworld]
      by_cases heq : key' = key
      · subst heq
        rw [readings_cons_of hkey]
        show Kept _ _ (Function.update w.zsets key' _ key') w.now
        rw [Function.update_self]
        exact hkept.check hpos w.now_nonneg
      · have hne : call.key ≠ some key := by
          rw [hkey]
          exact fun h => heq (Option.some.inj h)
        rw [readings_cons_of_ne hne]
        show Kept _ _ (Function.update w.zsets key' _ key) w.now
        rw [Function.update_of_ne (Ne.symm heq)]
        exact hkept

-- ============================================================================
-- Counting calls
-- ============================================================================

/-- The readings of the calls for a key in the window that a call ends. -/
def inWindow (limiter : WebSocketRateLimiter) (key : Key) (c : LimiterEntry)
    (older : List LimiterEntry) : List ℚ :=
  Sliding.window limiter.windowSeconds (reading c) (readings key (c :: older))

/-- A call has returned `True`. -/
def accepted (c : LimiterEntry) : Bool :=
  match c.out with
  | .ok (some b) => b
  | _ => false

/-- Each call returns whether the calls for its key in its window, itself included, are
    within the limit. -/
def CountsCalls (limiter : WebSocketRateLimiter) (cs : List LimiterEntry) : Prop :=
  ∀ c older key, c :: older <:+ cs → c.call.key = some key →
    c.out = .ok (some (decide ((inWindow limiter key c older).length ≤ limiter.limit key)))

/-- In no window more calls for a key return `True` than its limit. -/
def KeepsLimits (limiter : WebSocketRateLimiter) (cs : List LimiterEntry) : Prop :=
  ∀ key now, (acceptedIn reading (fun c => accepted c) (limiter.windowSeconds : ℚ) now
    (checks key cs)).length ≤ limiter.limit key

/-- Where the window of a call has more calls than the limit, they read more different
    times than the limit. -/
def Distinguished (limiter : WebSocketRateLimiter) (cs : List LimiterEntry) : Prop :=
  ∀ c older key, c :: older <:+ cs → c.call.key = some key →
    limiter.limit key < (inWindow limiter key c older).length →
    limiter.limit key < (inWindow limiter key c older).toFinset.card

/-- What a call returns. -/
theorem out_of_run (hw : 0 < limiter.windowSeconds) (hrun : LimiterRun limiter t₀ cs w)
    {older : List LimiterEntry} (hsuf : c :: older <:+ cs) (hkey : c.call.key = some key) :
    c.out = .ok (some (decide
      ((inWindow limiter key c older).toFinset.card ≤ limiter.limit key))) := by
  obtain ⟨newer, rfl⟩ := hsuf
  obtain ⟨hold, hex⟩ := hrun.entry
  obtain ⟨hout, -⟩ := exec_check hw hkey hex
  rw [hout, (kept_of_run hw hold key).card_recorded (Nat.cast_pos.mpr hw), inWindow,
    readings_cons_of hkey]
  rfl

/-- The clock readings of the calls for a key do not decrease. -/
theorem checks_sorted (hw : 0 < limiter.windowSeconds) (hrun : LimiterRun limiter t₀ cs w)
    (key : Key) : (checks key cs).Pairwise fun c c' => reading c' ≤ reading c := by
  induction hrun with
  | nil => exact .nil
  | @cons cs w w' call log out hs hex ih =>
      by_cases hkey : call.key = some key
      · rw [checks_cons_of hkey]
        refine List.pairwise_cons.mpr ⟨fun c hc => ?_, ih⟩
        exact (kept_of_run hw hs key).past (reading c) (List.mem_map_of_mem hc)
      · rw [checks_cons_of_ne hkey]
        exact ih

theorem keepsLimits_of_countsCalls (hw : 0 < limiter.windowSeconds)
    (hrun : LimiterRun limiter t₀ cs w) (hcounts : CountsCalls limiter cs) :
    KeepsLimits limiter cs := by
  intro key now
  refine length_acceptedIn_le (checks_sorted hw hrun key) ?_ now
  intro c older hsuf haccepted
  obtain ⟨before, hbefore, rfl, hkey⟩ := exists_suffix_of_filter hsuf
  have hkey : c.call.key = some key := of_decide_eq_true hkey
  have hout := hcounts c before key hbefore hkey
  have hle : (inWindow limiter key c before).length ≤ limiter.limit key := by
    simp only [accepted, hout] at haccepted
    exact of_decide_eq_true haccepted
  rw [inWindow, readings_cons_of hkey] at hle
  exact hle

/-- In a run of calls, each returns whether the calls in its window are within the limit,
    and no window accepts more, if and only if no window has too many calls at too few
    different times. -/
theorem countsCalls_iff (hw : 0 < limiter.windowSeconds) (hrun : LimiterRun limiter t₀ cs w) :
    CountsCalls limiter cs ∧ KeepsLimits limiter cs ↔ Distinguished limiter cs := by
  have hcounts : CountsCalls limiter cs ↔ Distinguished limiter cs := by
    constructor
    · intro h c older key hsuf hkey hlt
      have hout := (out_of_run hw hrun hsuf hkey).symm.trans (h c older key hsuf hkey)
      rw [Except.ok.injEq, Option.some.injEq, decide_eq_decide] at hout
      by_contra hcard
      exact absurd (hout.mp (not_lt.mp hcard)) (not_le_of_gt hlt)
    · intro h c older key hsuf hkey
      rw [out_of_run hw hrun hsuf hkey, Except.ok.injEq, Option.some.injEq, decide_eq_decide]
      constructor
      · intro hcard
        by_contra hlen
        exact absurd (h c older key hsuf hkey (not_le.mp hlen)) (not_lt.mpr hcard)
      · intro hlen
        exact card_window_le.trans hlen
  constructor
  · intro h
    exact hcounts.mp h.1
  · intro h
    exact ⟨hcounts.mpr h, keepsLimits_of_countsCalls hw hrun (hcounts.mpr h)⟩

/-- One connection for each address. -/
def oneConnection : WebSocketRateLimiter := { connectionsPerIp := 1 }

/-- Two connections at the same time are both accepted. -/
theorem oneConnection_twice :
    ∃ c older w, LimiterRun oneConnection 0 (c :: older) w ∧
      c.call.key = some (.connIp "10.0.0.1") ∧ accepted c ∧
      1 < (inWindow oneConnection (.connIp "10.0.0.1") c older).length :=
  exists_serial (gatewayAnswers_sound fun _ => false)
    [.checkConnectionLimit "10.0.0.1", .checkConnectionLimit "10.0.0.1"]
    (fun c older => c.call.key = some (.connIp "10.0.0.1") ∧ accepted c ∧
      1 < (inWindow oneConnection (.connIp "10.0.0.1") c older).length) (by decide +kernel)

theorem not_countsCalls_oneConnection :
    ∃ cs w, LimiterRun oneConnection 0 cs w ∧ ¬ CountsCalls oneConnection cs := by
  obtain ⟨c, older, w, hrun, hkey, haccepted, hlt⟩ := oneConnection_twice
  refine ⟨c :: older, w, hrun, fun hcounts => ?_⟩
  have hout := hcounts c older _ List.suffix_rfl hkey
  simp only [accepted, hout, decide_eq_true_eq] at haccepted
  exact absurd haccepted (not_le_of_gt hlt)

theorem countsCalls_iff_oneConnection :
    ∃ cs w, LimiterRun oneConnection 0 cs w ∧ ¬ Distinguished oneConnection cs := by
  obtain ⟨cs, w, hrun, hnot⟩ := not_countsCalls_oneConnection
  exact ⟨cs, w, hrun, fun h => hnot ((countsCalls_iff (by decide) hrun).mpr h).1⟩

theorem not_countsCalls :
    ¬ ∀ (limiter : WebSocketRateLimiter) t₀ cs w, limiter.windowSeconds = 60 →
      LimiterRun limiter t₀ cs w → CountsCalls limiter cs ∧ KeepsLimits limiter cs := by
  intro h
  obtain ⟨cs, w, hrun, hnot⟩ := not_countsCalls_oneConnection
  exact hnot (h _ _ _ _ rfl hrun).1

end Mtrader.Gateway
