/-
  Mtrader.Gateway.Subscriptions

  The number of topics in a user's subscription set.

  The endpoint adds a topic first and counts afterwards, and what it refuses stays in the
  set.  So the limit holds in a run exactly when no topic is added where there is no room
  for it.
-/

import Mtrader.Gateway.Cleanup

namespace Mtrader.Gateway

open Py Coroutine Collection Auth

variable {ι : Type} [DecidableEq ι] {repr : Json → String} {calls : ι → GatewayCall} {w₀ : World}
variable {h : GatewayHistory ι} {c : GatewayConfig ι} {user : String} {max : ℕ}

-- ============================================================================
-- The limit
-- ============================================================================

/-- How many topics coroutine `i` has last added to the user's set. -/
def lastAdded (user : String) (i : ι) : GatewayHistory ι → ℕ
  | [] => 0
  | (j, ⟨_, .sadd key _, .ok added⟩) :: h =>
      if j = i ∧ key = .subs user then added else lastAdded user i h
  | _ :: h => lastAdded user i h

/-- A connection that finds more topics than its limit, and refuses the one it has added,
    has added nothing. -/
def RefusalsLeave (calls : ι → GatewayCall) (user : String) (h : GatewayHistory ι) : Prop :=
  ∀ i limiter client rounds w count h', calls i = .serve limiter client rounds →
    (i, ⟨w, .scard (.subs user), .ok count⟩) :: h' <:+ h →
    limiter.maxSubscriptions < count → lastAdded user i h' = 0

/-- If the operation adds topics to the user's set, there is room for the new ones. -/
def HasRoom (user : String) (max : ℕ) (ev : Event World GatewayOp.Ans Exc) : Prop :=
  ∀ topics, ev.op = .sadd (.subs user) topics →
    topics.toFinset ⊆ ev.pre.members (.subs user) ∨
      (ev.pre.members (.subs user)).card +
        (topics.toFinset \ ev.pre.members (.subs user)).card ≤ max

/-- From a set within the limit, an operation keeps to the limit exactly when there is
    room. -/
theorem hasRoom_iff {w w' : World} {e : GatewayOp} {a : Except Exc e.Ans}
    (hcard : (w.members (.subs user)).card ≤ max) (henv : gatewayEnv w e a w') :
    (w'.members (.subs user)).card ≤ max ↔ HasRoom user max ⟨w, e, a⟩ := by
  by_cases hsadd : ∃ topics, e = .sadd (.subs user) topics
  · obtain ⟨topics, rfl⟩ := hsadd
    obtain ⟨-, rfl⟩ := henv
    have hroom : HasRoom user max ⟨w, .sadd (.subs user) topics, a⟩ ↔
        topics.toFinset ⊆ w.members (.subs user) ∨ (w.members (.subs user)).card +
          (topics.toFinset \ w.members (.subs user)).card ≤ max := by
      refine ⟨fun h => h topics rfl, fun h topics' heq => ?_⟩
      obtain ⟨-, rfl⟩ := GatewayOp.sadd.inj heq
      exact h
    rw [hroom, World.members_writeSet, ← Finset.union_sdiff_self_eq_union,
      Finset.card_union_of_disjoint Finset.disjoint_sdiff]
    constructor
    · exact .inr
    · rintro (hsub | hle)
      · rw [Finset.sdiff_eq_empty_iff_subset.mpr hsub]
        exact hcard
      · exact hle
  · refine iff_of_true (le_trans (Finset.card_le_card ?_) hcard) ?_
    · intro topic hmem
      rcases mem_members_of_change (change_of_env henv) hmem with hmem | ⟨topics, he, -⟩
      · exact hmem
      · exact absurd ⟨topics, he⟩ hsadd
    · exact fun topics heq => absurd ⟨topics, heq⟩ hsadd

theorem worlds_bounded_iff {clock : ℚ≥0} {incoming : Socket → List Json}
    (hrun : GatewayRun repr calls (World.initial clock incoming) h c) :
    (∀ w ∈ c.worlds h, (w.members (.subs user)).card ≤ max) ↔
      ∀ entry ∈ h, HasRoom user max entry.2 :=
  hrun.stays_iff (Nat.zero_le _) fun _ _ _ _ _ hcard henv => hasRoom_iff hcard henv

/-- Within the limit nothing is refused. -/
theorem refusalsLeave_of_bounded (hrun : GatewayRun repr calls w₀ h c)
    (hmax : ∀ i limiter client rounds, calls i = .serve limiter client rounds →
      limiter.maxSubscriptions = max)
    (hbounded : ∀ w ∈ c.worlds h, (w.members (.subs user)).card ≤ max) :
    RefusalsLeave calls user h := by
  intro i limiter client rounds w count h' hcall hsuf hlt
  obtain ⟨c₁, c₂, -, hs⟩ := hrun.entry hsuf
  have hcount : count = (w.members (.subs user)).card := by
    cases hs with
    | mk _ _ henv => exact Except.ok.inj henv.1
  have hmem : w ∈ c.worlds h :=
    List.mem_cons_of_mem _ (List.mem_map_of_mem (hsuf.subset List.mem_cons_self))
  have hle := hbounded w hmem
  rw [hmax i limiter client rounds hcall] at hlt
  omega

/-- In a run of the gateway whose connections have the limit `max`, the user's set stays
    within it, and what is refused leaves the set alone, if and only if topics are only
    added where there is room for them. -/
theorem subscriptions_bounded_iff {clock : ℚ≥0} {incoming : Socket → List Json}
    (hrun : GatewayRun repr calls (World.initial clock incoming) h c)
    (hmax : ∀ i limiter client rounds, calls i = .serve limiter client rounds →
      limiter.maxSubscriptions = max) :
    ((∀ w ∈ c.worlds h, (w.members (.subs user)).card ≤ max) ∧ RefusalsLeave calls user h) ↔
      ∀ entry ∈ h, HasRoom user max entry.2 := by
  rw [← worlds_bounded_iff hrun]
  constructor
  · exact And.left
  · intro hbounded
    exact ⟨hbounded, refusalsLeave_of_bounded hrun hmax hbounded⟩

/-- A subscribe message. -/
def subscribeTo (topic : String) : Json :=
  .obj [("event", .str "subscribe"), ("topic", .str topic)]

/-- A connection with room for one topic, whose client asks for two. -/
def twoTopics (_ : Unit) : GatewayCall :=
  .serve { maxSubscriptions := 1 } ⟨1, "c1", userOne⟩ 2

theorem twoTopics_run :
    ∃ h c, GatewayRun (fun _ => "") twoTopics
        (World.initial 0 fun _ => [subscribeTo "user:1:a", subscribeTo "user:1:b"]) h c ∧
      1 < (c.world.members (.subs "1")).card :=
  exists_gatewayRun (fun _ => false) (List.replicate 14 ())
    (fun _ c => 1 < (c.world.members (.subs "1")).card) (by decide +kernel)

theorem twoTopics_limit (i : Unit) (limiter : WebSocketRateLimiter) (client : Client)
    (rounds : ℕ) (hcall : twoTopics i = .serve limiter client rounds) :
    limiter.maxSubscriptions = 1 := by
  obtain ⟨rfl, -⟩ := GatewayCall.serve.inj hcall
  rfl

theorem subscriptions_bounded_iff_twoTopics :
    ∃ h c, GatewayRun (fun _ => "") twoTopics
        (World.initial 0 fun _ => [subscribeTo "user:1:a", subscribeTo "user:1:b"]) h c ∧
      ¬ ∀ entry ∈ h, HasRoom "1" 1 entry.2 := by
  obtain ⟨h, c, hrun, hlt⟩ := twoTopics_run
  refine ⟨h, c, hrun, fun hroom => ?_⟩
  obtain ⟨hbounded, -⟩ := (subscriptions_bounded_iff hrun twoTopics_limit).mpr hroom
  exact absurd (hbounded c.world List.mem_cons_self) (not_le_of_gt hlt)

theorem not_subscriptions_bounded :
    ¬ ∀ (ι : Type) [DecidableEq ι] (repr : Json → String) (calls : ι → GatewayCall) (clock : ℚ≥0)
      (incoming : Socket → List Json) (h : GatewayHistory ι) (c : GatewayConfig ι)
      (user : String) (max : ℕ),
      (∀ i, ∃ limiter client rounds, calls i = .serve limiter client rounds ∧
        limiter.maxSubscriptions = max ∧ client.claims.sub = user) →
      GatewayRun repr calls (World.initial clock incoming) h c →
      (∀ w ∈ c.worlds h, (w.members (.subs user)).card ≤ max) ∧ RefusalsLeave calls user h := by
  intro hall
  obtain ⟨h, c, hrun, hlt⟩ := twoTopics_run
  have hbounded := (hall Unit _ twoTopics 0 _ h c "1" 1 (fun _ => ⟨_, _, _, rfl, rfl, rfl⟩) hrun).1
  exact absurd (hbounded c.world List.mem_cons_self) (not_le_of_gt hlt)

end Mtrader.Gateway
