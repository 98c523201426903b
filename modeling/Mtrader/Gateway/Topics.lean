/-
  Mtrader.Gateway.Topics

  `_topic_allowed` of `routes/ws.py`: which topics a user may subscribe to.

  The topics of a user are `{namespace}:{sub}` and what follows it behind another
  colon, but the test is for the prefix `{namespace}:{sub}` alone.  So it keeps two
  users apart exactly when neither one's subject begins with the other's in one of
  two ways.
-/

import Mtrader.Auth.Token
import Mathlib.Data.List.Infix

namespace Mtrader.Gateway

open Auth

-- ============================================================================
-- Texts
-- ============================================================================

/-- `s.startswith(p)`. -/
def startsWith (s p : String) : Bool := p.toList.isPrefixOf s.toList

theorem startsWith_iff {s p : String} : startsWith s p ↔ p.toList <+: s.toList :=
  List.isPrefixOf_iff_prefix

/-- The part before the first separator is determined by any longer text. -/
theorem prefix_separated {α : Type} {c : α} {xs ys us vs : List α} (hxs : c ∉ xs) (hys : c ∉ ys)
    (h : xs ++ c :: us <+: ys ++ c :: vs) : xs = ys ∧ us <+: vs := by
  induction xs generalizing ys with
  | nil =>
      cases ys with
      | nil => exact ⟨rfl, (List.cons_prefix_cons.mp h).2⟩
      | cons y ys =>
          have hy : c = y := (List.cons_prefix_cons.mp h).1
          rw [hy] at hys
          exact absurd List.mem_cons_self hys
  | cons x xs ih =>
      cases ys with
      | nil =>
          have hx : x = c := (List.cons_prefix_cons.mp h).1
          rw [hx] at hxs
          exact absurd List.mem_cons_self hxs
      | cons y ys =>
          obtain ⟨hx, hrest⟩ := List.cons_prefix_cons.mp h
          obtain ⟨hxs', hus⟩ := ih (fun hc => hxs (List.mem_cons_of_mem _ hc))
            (fun hc => hys (List.mem_cons_of_mem _ hc)) hrest
          rw [hx, hxs']
          exact ⟨rfl, hus⟩

/-- A prefix of two texts joined by a separator lies in the first, or reaches over the
    separator. -/
theorem prefix_joined {α : Type} {c : α} {us vs rest : List α} (h : us <+: vs ++ c :: rest) :
    us <+: vs ∨ vs ++ [c] <+: us := by
  have hvs : vs ++ [c] <+: vs ++ c :: rest := ⟨rest, by simp⟩
  rcases List.prefix_or_prefix_of_prefix h hvs with hus | hus
  · rcases List.prefix_concat_iff.mp hus with rfl | hus
    · exact .inr (List.prefix_refl _)
    · exact .inl hus
  · exact .inr hus

-- ============================================================================
-- Topics
-- ============================================================================

/-- The topic namespaces. -/
inductive Namespace
  | user | accountUpdates | positionUpdates | orderUpdates | marketData | calendarUpdates
  | strategySignals
  deriving DecidableEq, Repr

def Namespace.name : Namespace → String
  | .user => "user"
  | .accountUpdates => "account_updates"
  | .positionUpdates => "position_updates"
  | .orderUpdates => "order_updates"
  | .marketData => "market_data"
  | .calendarUpdates => "calendar_updates"
  | .strategySignals => "strategy_signals"

/-- `{namespace}:{sub}`. -/
def Namespace.topic (ns : Namespace) (sub : String) : String := ns.name ++ ":" ++ sub

def allowedPrefixes (claims : Claims) : List String :=
  [Namespace.user.topic claims.sub,
    Namespace.accountUpdates.topic claims.sub,
    Namespace.positionUpdates.topic claims.sub,
    Namespace.orderUpdates.topic claims.sub,
    Namespace.marketData.topic claims.sub,
    Namespace.calendarUpdates.topic claims.sub,
    Namespace.strategySignals.topic claims.sub]

/-- `_topic_allowed`. -/
def topicAllowed (topic : String) (claims : Claims) : Bool :=
  (allowedPrefixes claims).any fun p => startsWith topic p

/-- The topic is one of the user's own. -/
def Namespace.Owns (ns : Namespace) (sub topic : String) : Prop :=
  topic = ns.topic sub ∨ ∃ rest, topic = ns.topic sub ++ ":" ++ rest

theorem Namespace.colon_not_mem (ns : Namespace) : ':' ∉ ns.name.toList := by
  cases ns <;> decide

theorem Namespace.topic_toList (ns : Namespace) (sub : String) :
    (ns.topic sub).toList = ns.name.toList ++ ':' :: sub.toList := by
  rw [Namespace.topic, String.toList_append, String.toList_append, List.append_assoc]
  rfl

theorem mem_allowedPrefixes {claims : Claims} {p : String} :
    p ∈ allowedPrefixes claims ↔ ∃ ns : Namespace, p = ns.topic claims.sub := by
  constructor
  · intro h
    simp only [allowedPrefixes, List.mem_cons, List.not_mem_nil, or_false] at h
    rcases h with h | h | h | h | h | h | h
    all_goals exact ⟨_, h⟩
  · rintro ⟨ns, rfl⟩
    cases ns <;> simp [allowedPrefixes]

theorem topicAllowed_iff {topic : String} {claims : Claims} :
    topicAllowed topic claims ↔ ∃ ns : Namespace, startsWith topic (ns.topic claims.sub) := by
  simp only [topicAllowed, List.any_eq_true, mem_allowedPrefixes]
  constructor
  · rintro ⟨p, ⟨ns, rfl⟩, h⟩
    exact ⟨ns, h⟩
  · rintro ⟨ns, h⟩
    exact ⟨_, ⟨ns, rfl⟩, h⟩

/-- A user's own topics are allowed. -/
theorem topicAllowed_of_owns {ns : Namespace} {topic : String} {claims : Claims}
    (h : ns.Owns claims.sub topic) : topicAllowed topic claims := by
  refine topicAllowed_iff.mpr ⟨ns, startsWith_iff.mpr ?_⟩
  rcases h with rfl | ⟨rest, rfl⟩
  · exact List.prefix_refl _
  · rw [String.append_assoc, String.toList_append]
    exact List.prefix_append _ _

/-- Among the topics that begin with `{namespace}:`, the test sees only what follows. -/
theorem topicAllowed_topic {ns : Namespace} {text : String} {claims : Claims} :
    topicAllowed (ns.topic text) claims ↔ startsWith text claims.sub := by
  rw [topicAllowed_iff]
  constructor
  · rintro ⟨ns', h⟩
    have hprefix := startsWith_iff.mp h
    rw [Namespace.topic_toList, Namespace.topic_toList] at hprefix
    exact startsWith_iff.mpr
      (prefix_separated ns'.colon_not_mem ns.colon_not_mem hprefix).2
  · intro h
    refine ⟨ns, startsWith_iff.mpr ?_⟩
    rw [Namespace.topic_toList, Namespace.topic_toList, List.prefix_append_right_inj,
      List.cons_prefix_cons]
    exact ⟨rfl, startsWith_iff.mp h⟩

/-- A topic of the user's behind a further colon. -/
theorem Namespace.topic_append (ns : Namespace) (sub rest : String) :
    ns.topic sub ++ ":" ++ rest = ns.topic (sub ++ ":" ++ rest) := by
  simp only [Namespace.topic, String.append_assoc]

/-- No topic of another user is allowed exactly when the user's subject is not the
    beginning of the other one's, and does not begin with the other one's and a
    colon. -/
theorem topicAllowed_isolated_iff (claims : Claims) (v : String) :
    (∀ (ns : Namespace) topic, ns.Owns v topic → topicAllowed topic claims = false) ↔
      startsWith v claims.sub = false ∧ startsWith claims.sub (v ++ ":") = false := by
  simp only [← Bool.not_eq_true]
  constructor
  · intro h
    refine ⟨fun hv => h .user _ (.inl rfl) (topicAllowed_topic.mpr hv), fun hu => ?_⟩
    obtain ⟨rest, hrest⟩ := startsWith_iff.mp hu
    have hsub : claims.sub = v ++ ":" ++ String.ofList rest := by
      rw [← String.toList_inj, String.toList_append, String.toList_ofList]
      exact hrest.symm
    refine h .user _ (.inr ⟨String.ofList rest, rfl⟩) ?_
    rw [Namespace.topic_append, ← hsub]
    exact topicAllowed_of_owns (.inl rfl)
  · rintro ⟨hv, hu⟩ ns topic (rfl | ⟨rest, rfl⟩) hallowed
    · exact hv (topicAllowed_topic.mp hallowed)
    · rw [Namespace.topic_append] at hallowed
      have hprefix := startsWith_iff.mp (topicAllowed_topic.mp hallowed)
      rw [String.toList_append, String.toList_append, List.append_assoc] at hprefix
      rcases prefix_joined hprefix with hprefix | hprefix
      · exact hv (startsWith_iff.mpr hprefix)
      · refine hu (startsWith_iff.mpr ?_)
        rw [String.toList_append]
        exact hprefix

/-- An access token of user `1`. -/
def userOne : Claims where
  sub := "1"
  iss := "test-issuer"
  aud := "test-aud"
  iat := 0
  nbf := 0
  exp := 900
  jti := "u"
  typ := .access
  fid := none
  fp := none

/-- User `1` may subscribe to what concerns user `12`. -/
theorem not_topicAllowed_isolated :
    ¬ ∀ (claims : Claims) (v : String), claims.sub ≠ v →
      ∀ (ns : Namespace) topic, ns.Owns v topic → topicAllowed topic claims = false := by
  intro h
  have hallowed := h userOne "12" (by decide) .user "user:12" (.inl (by decide +kernel))
  revert hallowed
  decide +kernel

end Mtrader.Gateway
