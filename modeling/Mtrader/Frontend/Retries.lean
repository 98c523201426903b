/-
  Mtrader.Frontend.Retries

  How many HTTP requests one request of `api` causes.

  The response interceptor sends the request again through `api`, so that the answer to
  it comes to the interceptor again.  Nothing counts these rounds: they end with the
  server's answers, or when somebody takes the refresh token away.
-/

import Mtrader.Frontend.Api
import Mathlib.Data.Nat.Find

namespace Mtrader.Frontend

open Coroutine

abbrev LocalStorage : Type := String → Option String

/-- What a request meets with in its rounds, which are counted from 0. -/
structure Behaviour where
  /-- The response to the request. -/
  response : ℕ → (r : Request) → Except AxiosError r.Data
  /-- The response to the refresh. -/
  refresh : ℕ → Except AxiosError TokenPair
  /-- What the rest of the page makes of `localStorage` until the request is answered. -/
  whileSent : ℕ → LocalStorage → LocalStorage
  /-- What it makes of it until the refresh is answered. -/
  whileRefreshing : ℕ → LocalStorage → LocalStorage

/-- The page's storage, and the HTTP requests so far. -/
structure Traffic where
  localStorage : LocalStorage
  sent : ℕ := 0
  /-- Posts to `/api/v1/auth/refresh`. -/
  posted : ℕ := 0

def Traffic.requests (w : Traffic) : ℕ := w.sent + w.posted

def Traffic.setItem (w : Traffic) (key value : String) : Traffic :=
  { w with localStorage := Function.update w.localStorage key (some value) }

/-- `localStorage` with the tokens of a refresh. -/
def LocalStorage.store (localStorage : LocalStorage) (pair : TokenPair) : LocalStorage :=
  Function.update (Function.update localStorage "access_token" (some pair.accessToken))
    "refresh_token" (some pair.refreshToken)

namespace Behaviour

/-- The request's round is the number of the times it has been sent before. -/
def answers (b : Behaviour) : Answers Traffic Op.Ans AxiosError := fun w e =>
  match e with
  | .called => (.ok (), w)
  | .getItem key => (.ok (w.localStorage key), w)
  | .setItem key value => (.ok (), w.setItem key value)
  | .removeItem key =>
      (.ok (), { w with localStorage := Function.update w.localStorage key none })
  | .clear => (.ok (), { w with localStorage := fun _ => none })
  | .randomUUID => (.ok "", w)
  | .send r _ => (b.response w.sent r,
      { w with localStorage := b.whileSent w.sent w.localStorage, sent := w.sent + 1 })
  | .post _ => (.ok (), { w with posted := w.posted + 1 })
  | .response => (b.refresh (w.sent - 1),
      { w with localStorage := b.whileRefreshing (w.sent - 1) w.localStorage })

/-- `localStorage` when the rounds before have all led to another one. -/
def storageAt (b : Behaviour) (localStorage : LocalStorage) : ℕ → LocalStorage
  | 0 => localStorage
  | k + 1 =>
      let refreshing := b.whileRefreshing k (b.whileSent k (b.storageAt localStorage k))
      match b.refresh k with
      | .ok pair => refreshing.store pair
      | .error _ => refreshing

/-- The round leads to another one: the request is answered with 401 while there is a
    refresh token, and the refresh is accepted. -/
def GoesOn (b : Behaviour) (r : Request) (localStorage : LocalStorage) (k : ℕ) : Prop :=
  b.response k r = .error { status := some 401 } ∧
    (truthy (b.whileSent k (b.storageAt localStorage k) "refresh_token")).isSome ∧
    ∃ pair, b.refresh k = .ok pair

/-- The request, for at most `n` responses. -/
def play (b : Behaviour) (r : Request) (localStorage : LocalStorage) (n : ℕ) :
    Except AxiosError r.Data × Trail Traffic Op.Ans AxiosError :=
  (apiRequest (send r) n none).play b.answers ⟨{ localStorage }, []⟩

/-- However many responses come, the request causes no more HTTP requests than that. -/
def FinitelyMany (b : Behaviour) (r : Request) (localStorage : LocalStorage) : Prop :=
  ∃ N, ∀ n, (b.play r localStorage n).2.world.requests ≤ N

/-- The promise settles: with more responses than that, the outcome is the same. -/
def Settles (b : Behaviour) (r : Request) (localStorage : LocalStorage) : Prop :=
  ∃ N result, ∀ n, N ≤ n → b.play r localStorage n = result

-- ============================================================================
-- One round
-- ============================================================================

/-- The world in which round `k` begins. -/
def worldAt (b : Behaviour) (localStorage : LocalStorage) (k : ℕ) : Traffic where
  localStorage := b.storageAt localStorage k
  sent := k
  posted := k

section

variable {b : Behaviour} {r : Request} {localStorage : LocalStorage} {k : ℕ}
variable {t : Trail Traffic Op.Ans AxiosError}

/-- The request is sent, and the interceptor gets what is not a success. -/
theorem play_apiRequest (b : Behaviour) (r : Request) (authorization : Option String)
    (t : Trail Traffic Op.Ans AxiosError) :
    ∃ t', t'.world = { t.world with
        localStorage := b.whileSent t.world.sent t.world.localStorage
        sent := t.world.sent + 1 } ∧
      (∀ data, b.response t.world.sent r = .ok data →
        ∀ n, (apiRequest (send r) (n + 1) authorization).play b.answers t = (.ok data, t')) ∧
      ∀ err, b.response t.world.sent r = .error err →
        ∀ n, (apiRequest (send r) (n + 1) authorization).play b.answers t =
          (responseInterceptor err fun header => apiRequest (send r) n (some header)).play b.answers
            t' := by
  refine ⟨?t', ?hworld, fun data hresponse n => ?hdata, fun err hresponse n => ?herr⟩
  case hdata =>
    show ((Prog.ofExcept (b.response t.world.sent r) : Call r.Data).attempt >>= _ :
      Call r.Data).play b.answers _ = _
    rw [hresponse]
    rfl
  case herr =>
    show ((Prog.ofExcept (b.response t.world.sent r) : Call r.Data).attempt >>= _ :
      Call r.Data).play b.answers _ = _
    rw [hresponse]
    rfl
  case hworld => rfl

/-- With a refresh token the interceptor refreshes, and goes on if that is accepted. -/
theorem play_refresh (b : Behaviour) {α : Type} {err : AxiosError}
    {t : Trail Traffic Op.Ans AxiosError} (hstatus : err.status = some 401)
    (hstored : (truthy (t.world.localStorage "refresh_token")).isSome) :
    ∃ t', t'.world = { t.world with
        localStorage := b.whileRefreshing (t.world.sent - 1) t.world.localStorage
        posted := t.world.posted + 1 } ∧
      ∀ request : String → Call α, (responseInterceptor err request).play b.answers t =
        (do
          let refresh ← (Prog.ofExcept (b.refresh (t.world.sent - 1)) : Call TokenPair)
          setItem "access_token" refresh.accessToken
          setItem "refresh_token" refresh.refreshToken
          request ("Bearer " ++ refresh.accessToken)).play b.answers t' := by
  refine ⟨?t', ?hworld, fun request => ?hplay⟩
  case hplay =>
    rw [responseInterceptor, if_pos (show Browser.status Op.Ans err = some 401 from hstatus)]
    show (if (truthy (t.world.localStorage "refresh_token")).isSome then _ else _ : Call α).play
      b.answers _ = _
    rw [if_pos hstored]
    rfl
  case hworld => rfl

/-- Without one, or for another status, the promise is rejected. -/
theorem play_rejected (b : Behaviour) {α : Type} {err : AxiosError}
    {t : Trail Traffic Op.Ans AxiosError}
    (hrejects : ¬ (err.status = some 401 ∧
      (truthy (t.world.localStorage "refresh_token")).isSome)) :
    ∃ t', t'.world = t.world ∧ ∀ request : String → Call α,
      (responseInterceptor err request).play b.answers t = (.error err, t') := by
  by_cases hstatus : err.status = some 401
  · refine ⟨?t', ?hworld, fun request => ?hplay⟩
    case hplay =>
      rw [responseInterceptor, if_pos (show Browser.status Op.Ans err = some 401 from hstatus)]
      show (if (truthy (t.world.localStorage "refresh_token")).isSome then _
        else .raise err : Call α).play b.answers _ = _
      rw [if_neg fun hstored => hrejects ⟨hstatus, hstored⟩]
      rfl
    case hworld => rfl
  · refine ⟨t, rfl, fun request => ?_⟩
    rw [responseInterceptor, if_neg (show ¬ Browser.status Op.Ans err = some 401 from hstatus)]
    rfl

-- ============================================================================
-- Rounds
-- ============================================================================

/-- The world after the request was answered in round `k`. -/
def answeredAt (b : Behaviour) (localStorage : LocalStorage) (k : ℕ) : Traffic where
  localStorage := b.whileSent k (b.storageAt localStorage k)
  sent := k + 1
  posted := k

theorem play_answered (authorization : Option String) (ht : t.world = b.worldAt localStorage k) :
    ∃ t', t'.world = b.answeredAt localStorage k ∧
      (∀ data, b.response k r = .ok data →
        ∀ n, (apiRequest (send r) (n + 1) authorization).play b.answers t = (.ok data, t')) ∧
      ∀ err, b.response k r = .error err →
        ∀ n, (apiRequest (send r) (n + 1) authorization).play b.answers t =
          (responseInterceptor err fun header => apiRequest (send r) n (some header)).play b.answers
            t' := by
  obtain ⟨t', hworld, hdata, herr⟩ := play_apiRequest b r authorization t
  rw [ht] at hworld hdata herr
  exact ⟨t', hworld, hdata, herr⟩

/-- A round that leads to another one. -/
theorem play_goesOn (hgoes : b.GoesOn r localStorage k) (authorization : Option String)
    (ht : t.world = b.worldAt localStorage k) :
    ∃ t' header, t'.world = b.worldAt localStorage (k + 1) ∧
      ∀ n, (apiRequest (send r) (n + 1) authorization).play b.answers t =
        (apiRequest (send r) n header).play b.answers t' := by
  obtain ⟨hresponse, hstored, pair, hrefresh⟩ := hgoes
  obtain ⟨t₁, hanswered, -, herr⟩ := play_answered authorization ht
  have hplay := herr _ hresponse
  have hstored₁ : (truthy (t₁.world.localStorage "refresh_token")).isSome := by
    rw [hanswered]
    exact hstored
  obtain ⟨t₂, hrefreshed, hplay₂⟩ := play_refresh b rfl hstored₁
  rw [hanswered] at hrefreshed hplay₂
  refine ⟨?t', some ("Bearer " ++ pair.accessToken), ?hworld, fun n => ?hplay⟩
  case hplay =>
    refine (hplay n).trans ((hplay₂ _).trans ?_)
    show (Prog.ofExcept (b.refresh k) >>= _ : Call r.Data).play b.answers t₂ = _
    rw [hrefresh]
    rfl
  case hworld =>
    show (t₂.world.setItem _ _).setItem _ _ = _
    rw [hrefreshed, worldAt, storageAt, hrefresh]
    rfl

/-- A round that does not: the promise settles, with at most one more HTTP request. -/
theorem play_stops (hstops : ¬ b.GoesOn r localStorage k) (authorization : Option String)
    (ht : t.world = b.worldAt localStorage k) :
    ∃ result, result.2.world.requests ≤ 2 * (k + 1) ∧
      ∀ n, (apiRequest (send r) (n + 1) authorization).play b.answers t = result := by
  obtain ⟨t₁, hanswered, hdata, herr⟩ := play_answered (r := r) authorization ht
  have hrequests : t₁.world.requests = 2 * k + 1 := by
    rw [hanswered]
    show k + 1 + k = 2 * k + 1
    omega
  cases hresponse : b.response k r with
  | ok data =>
      refine ⟨(.ok data, t₁), ?_, hdata data hresponse⟩
      show t₁.world.requests ≤ 2 * (k + 1)
      omega
  | error err =>
      have hplay := herr err hresponse
      by_cases hrefreshes : err.status = some 401 ∧
        (truthy (t₁.world.localStorage "refresh_token")).isSome
      · obtain ⟨hstatus, hstored⟩ := hrefreshes
        obtain ⟨t₂, hrefreshed, hplay₂⟩ := play_refresh b hstatus hstored
        rw [hanswered] at hrefreshed hplay₂ hstored
        cases hrefresh : b.refresh k with
        | ok pair =>
            obtain ⟨status⟩ := err
            obtain rfl : status = some 401 := hstatus
            exact absurd ⟨hresponse, hstored, pair, hrefresh⟩ hstops
        | error x =>
            refine ⟨(.error x, t₂), ?_, fun n => (hplay n).trans ((hplay₂ _).trans ?_)⟩
            · rw [hrefreshed]
              show k + 1 + (k + 1) ≤ 2 * (k + 1)
              omega
            · show (Prog.ofExcept (b.refresh k) >>= _ : Call r.Data).play b.answers t₂ = _
              rw [hrefresh]
              rfl
      · obtain ⟨t₂, hworld, hplay₂⟩ := play_rejected b hrefreshes
        refine ⟨(.error err, t₂), ?_, fun n => (hplay n).trans (hplay₂ _)⟩
        rw [hworld]
        omega

/-- As long as the rounds lead to another one, each makes two HTTP requests. -/
theorem play_rounds (hgoes : ∀ j < k, b.GoesOn r localStorage j) :
    ∃ t header, t.world = b.worldAt localStorage k ∧
      ∀ n, b.play r localStorage (n + k) = (apiRequest (send r) n header).play b.answers t := by
  induction k with
  | zero => exact ⟨_, none, rfl, fun n => rfl⟩
  | succ k ih =>
      obtain ⟨t, header, ht, hplay⟩ := ih fun j hj => hgoes j (Nat.lt_succ_of_lt hj)
      obtain ⟨t', header', ht', hplay'⟩ := play_goesOn (hgoes k (Nat.lt_succ_self k)) header ht
      refine ⟨t', header', ht', fun n => ?_⟩
      rw [← hplay' n, ← hplay (n + 1), Nat.add_right_comm]
      rfl

end

section

variable {b : Behaviour} {r : Request} {localStorage : LocalStorage}

/-- The requests of a call whose first `n` rounds all lead to another one. -/
theorem requests_of_goesOn {n : ℕ} (hgoes : ∀ j < n, b.GoesOn r localStorage j) :
    (b.play r localStorage n).2.world.requests = 2 * n := by
  obtain ⟨t, header, ht, hplay⟩ := play_rounds hgoes
  have hn : b.play r localStorage n = (apiRequest (send r) 0 header).play b.answers t := by
    rw [← hplay 0, Nat.zero_add]
  have hworld : (b.play r localStorage n).2.world = b.worldAt localStorage n := by
    rw [hn]
    exact ht
  rw [hworld]
  show n + n = 2 * n
  omega

theorem not_finitelyMany_of_goesOn (hgoes : ∀ k, b.GoesOn r localStorage k) :
    ¬ b.FinitelyMany r localStorage := by
  rintro ⟨N, hN⟩
  have hle := hN (N + 1)
  rw [requests_of_goesOn fun j _ => hgoes j] at hle
  omega

/-- The first round that does not lead to another one is the last. -/
theorem play_of_first {k : ℕ} (hgoes : ∀ j < k, b.GoesOn r localStorage j)
    (hstops : ¬ b.GoesOn r localStorage k) :
    ∃ result, result.2.world.requests ≤ 2 * (k + 1) ∧
      ∀ n, k + 1 ≤ n → b.play r localStorage n = result := by
  obtain ⟨t, header, ht, hplay⟩ := play_rounds hgoes
  obtain ⟨result, hrequests, hstop⟩ := play_stops hstops header ht
  refine ⟨result, hrequests, fun n hn => ?_⟩
  obtain ⟨m, rfl⟩ := Nat.exists_eq_add_of_le hn
  rw [show k + 1 + m = m + 1 + k by omega, hplay, hstop]

end

/-- A request causes finitely many HTTP requests if and only if one of its rounds does not
    lead to another one; then its promise settles. -/
theorem finitelyMany_iff (b : Behaviour) (r : Request) (localStorage : LocalStorage) :
    (b.FinitelyMany r localStorage ↔ ∃ k, ¬ b.GoesOn r localStorage k) ∧
      (b.FinitelyMany r localStorage → b.Settles r localStorage) := by
  have hstops : b.FinitelyMany r localStorage → ∃ k, ¬ b.GoesOn r localStorage k := by
    intro hfinite
    by_contra hall
    exact not_finitelyMany_of_goesOn (not_exists_not.mp hall) hfinite
  -- What the first round that stops settles is settled for good.
  have hlast : (∃ k, ¬ b.GoesOn r localStorage k) → ∃ k result,
      (∀ j < k, b.GoesOn r localStorage j) ∧ result.2.world.requests ≤ 2 * (k + 1) ∧
        ∀ n, k + 1 ≤ n → b.play r localStorage n = result := by
    classical
    intro hex
    have hgoes : ∀ j < Nat.find hex, b.GoesOn r localStorage j :=
      fun j hj => not_not.mp (Nat.find_min hex hj)
    obtain ⟨result, hrequests, hplay⟩ := play_of_first hgoes (Nat.find_spec hex)
    exact ⟨Nat.find hex, result, hgoes, hrequests, hplay⟩
  refine ⟨⟨hstops, fun hex => ?_⟩, fun hfinite => ?_⟩
  · obtain ⟨k, result, hgoes, hrequests, hplay⟩ := hlast hex
    refine ⟨2 * (k + 1), fun n => ?_⟩
    rcases Nat.lt_or_ge k n with hn | hn
    · rw [hplay n hn]
      exact hrequests
    · rw [requests_of_goesOn fun j hj => hgoes j (Nat.lt_of_lt_of_le hj hn)]
      omega
  · obtain ⟨k, result, -, -, hplay⟩ := hlast (hstops hfinite)
    exact ⟨k + 1, result, hplay⟩

/-- A server that refuses the request for good and accepts every refresh. -/
def stubborn : Behaviour where
  response _ _ := .error { status := some 401 }
  refresh k := .ok ⟨"a" ++ toString k, "r" ++ toString k⟩
  whileSent _ localStorage := localStorage
  whileRefreshing _ localStorage := localStorage

/-- A login with a wrong password, while a refresh token is stored. -/
theorem not_finitelyMany_login :
    ¬ stubborn.FinitelyMany (.login "trader@example.com" "wrong" "web-client") expired := by
  refine not_finitelyMany_of_goesOn fun k => ⟨rfl, ?_, _, rfl⟩
  cases k with
  | zero => decide
  | succ k =>
      have hstored : stubborn.storageAt expired (k + 1) "refresh_token" =
          some ("r" ++ toString k) := rfl
      show (truthy (stubborn.storageAt expired (k + 1) "refresh_token")).isSome
      rw [hstored]
      simp [truthy]

end Behaviour

end Mtrader.Frontend
