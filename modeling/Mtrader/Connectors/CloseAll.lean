/-
  Mtrader.Connectors.CloseAll

  `MT5Connector.close_all_positions`, position by position.

  A position that is gone, an `order_send` without a result and a rejected request
  are answered with `ok` False.  A symbol without a tick is not: the quote is used
  without a check, so the whole call ends there and the positions behind it stay
  open.
-/

import Mtrader.Connectors.Idempotency

namespace Mtrader.Connectors

open Coroutine Py Mtrader.Execution

variable {F W : Type}

-- ============================================================================
-- The turn of a position
-- ============================================================================

/-- The close request for an open position at a quote. -/
def closeRequest (positionId : ℤ) (pos : Position F) (tick : Tick F) : TradeRequest F :=
  let closeType : DealType := if pos.type = .buy then .sell else .buy
  { action := .deal, position := some positionId, symbol := some (.str pos.symbol),
    volume := some pos.volume, type := some closeType,
    price := some (if closeType = .sell then tick.bid else tick.ask),
    deviation := some 10, typeTime := some .gtc, typeFilling := some .ioc }

/-- The codes that `close_position` takes for a closed position. -/
def closedCodes : List ℤ := [10013, 10012]

/-- The turn of a listed position: its result and what was asked of the terminal, newest
    first.  When it is still open and its symbol has a tick, a close request is sent; a
    position that is not closed is reported as `ok` False. -/
inductive Turn (pos : Position F) : BrokerResponse F → Mt5Log W F → Prop
  | gone {response : BrokerResponse F} {w : W} {found : Option (List (Position F))}
      (hfound : found.getD [] = []) (hok : response.ok = false) :
      Turn pos response [⟨w, .positionsGet (.ticket pos.ticket), .ok found⟩]
  | unquoted {response : BrokerResponse F} {w w₁ : W} {found : Option (List (Position F))}
      {p : Position F} {others : List (Position F)}
      (hfound : found.getD [] = p :: others) (hok : response.ok = false) :
      Turn pos response [⟨w₁, .symbolInfoTick (.str p.symbol), .ok none⟩,
        ⟨w, .positionsGet (.ticket pos.ticket), .ok found⟩]
  | failed {response : BrokerResponse F} {w w₁ w₂ : W} {found : Option (List (Position F))}
      {p : Position F} {others : List (Position F)} {tick : Tick F}
      (hfound : found.getD [] = p :: others) (hok : response.ok = false) :
      Turn pos response [⟨w₂, .orderSend (closeRequest pos.ticket p tick), .ok none⟩,
        ⟨w₁, .symbolInfoTick (.str p.symbol), .ok (some tick)⟩,
        ⟨w, .positionsGet (.ticket pos.ticket), .ok found⟩]
  | answered {response : BrokerResponse F} {w w₁ w₂ : W} {found : Option (List (Position F))}
      {p : Position F} {others : List (Position F)} {tick : Tick F} {res : OrderSendResult F}
      (hfound : found.getD [] = p :: others)
      (hok : response.ok = decide (res.retcode ∈ closedCodes)) :
      Turn pos response [⟨w₂, .orderSend (closeRequest pos.ticket p tick), .ok (some res)⟩,
        ⟨w₁, .symbolInfoTick (.str p.symbol), .ok (some tick)⟩,
        ⟨w, .positionsGet (.ticket pos.ticket), .ok found⟩]

/-- The turns of a list of positions, in order, with one result for each. -/
inductive Turns : List (Position F) → List (BrokerResponse F) → Mt5Log W F → Prop
  | nil : Turns [] [] []
  | cons {pos : Position F} {rows : List (Position F)} {response : BrokerResponse F}
      {responses : List (BrokerResponse F)} {evs more : Mt5Log W F} :
      Turn pos response evs → Turns rows responses more →
      Turns (pos :: rows) (response :: responses) (more ++ evs)

/-- One result for each position. -/
theorem Turns.length {rows : List (Position F)} {responses : List (BrokerResponse F)}
    {log : Mt5Log W F} (h : Turns rows responses log) : responses.length = rows.length := by
  induction h with
  | nil => rfl
  | cons _ _ ih => simp [ih]

/-- Every listed position had its turn, and the call returned their results. -/
def ClosesAll (out : Except Exc (List (BrokerResponse F))) (log : Mt5Log W F) : Prop :=
  ∃ (w : W) (rows : Option (List (Position F))) (responses : List (BrokerResponse F))
    (evs : Mt5Log W F),
    log = evs ++ [⟨w, .positionsGet .all, .ok rows⟩] ∧ out = .ok responses ∧
      Turns (rows.getD []) responses evs

/-- The terminal has answered: with a tick, where a tick was asked for, and with a result
    that has `_asdict`, where a request was sent and has a result. -/
def Supplied : Event W (Mt5Op.Ans (F := F)) Exc → Prop
  | ⟨_, .symbolInfoTick _, .ok quoted⟩ => quoted.isSome
  | ⟨_, .orderSend _, .ok sent⟩ => ∀ res, sent = some res → res.hasAsdict = true
  | ⟨_, _, .ok _⟩ => True
  | ⟨_, _, .error _⟩ => False

-- ============================================================================
-- close_position and close_all_positions
-- ============================================================================

/-- What a program has done from a log on: it has returned with `P` of its answers, all
    supplied, or it has raised at one that was not. -/
def SuppliedOr {R : Type} (P : R → Mt5Log W F → Prop) (before : Mt5Log W F) (out : Except Exc R)
    (log : Mt5Log W F) : Prop :=
  ∃ evs, log = evs ++ before ∧
    ((∃ r, out = .ok r ∧ P r evs ∧ ∀ ev ∈ evs, Supplied ev) ∨
      ((∃ x, out = .error x) ∧ ∃ ev ∈ evs, ¬ Supplied ev))

variable {env : Env W (Mt5Op.Ans (F := F)) Exc}

theorem closePosition_turn (pos : Position F) {t : Mt5Trail W F} :
    wp env (closePosition pos.ticket) (fun out t' => SuppliedOr (Turn pos) t.log out t'.log) t := by
  refine wp_op_bind.mpr ⟨fun found w₁ _ => ?_, fun x w₁ _ => ?_⟩
  swap
  · exact ⟨[_], rfl, .inr ⟨⟨x, rfl⟩, _, List.mem_cons_self, id⟩⟩
  have hget : Supplied (⟨t.world, .positionsGet (.ticket pos.ticket), .ok found⟩ :
      Event W (Mt5Op.Ans (F := F)) Exc) := trivial
  simp only
  split
  next hfound => exact ⟨[_], rfl, .inl ⟨_, rfl, .gone hfound rfl, by simpa using hget⟩⟩
  next p others hfound =>
  refine wp_op_bind.mpr ⟨fun quoted w₂ _ => ?_, fun x w₂ _ => ?_⟩
  swap
  · exact ⟨[_, _], rfl, .inr ⟨⟨x, rfl⟩, _, List.mem_cons_self, id⟩⟩
  cases quoted with
  | none => exact ⟨[_, _], rfl, .inr ⟨⟨_, rfl⟩, _, List.mem_cons_self, Bool.false_ne_true⟩⟩
  | some tick =>
  have htick : Supplied (⟨w₁, .symbolInfoTick (.str p.symbol), .ok (some tick)⟩ :
      Event W (Mt5Op.Ans (F := F)) Exc) := rfl
  refine wp_op_bind.mpr ⟨fun sent w₃ _ => ?_, fun x w₃ _ => ?_⟩
  swap
  · exact ⟨[_, _, _], rfl, .inr ⟨⟨x, rfl⟩, _, List.mem_cons_self, id⟩⟩
  cases sent with
  | none =>
      refine ⟨[_, _, _], rfl, .inl ⟨_, rfl, .failed hfound rfl, ?_⟩⟩
      have hsend : Supplied (⟨w₂, .orderSend (closeRequest pos.ticket p tick), .ok none⟩ :
          Event W (Mt5Op.Ans (F := F)) Exc) := fun res h => by cases h
      simpa using ⟨hsend, htick, hget⟩
  | some res =>
      simp only
      split
      next hasdict =>
        refine ⟨[_, _, _], rfl, .inl ⟨_, rfl, .answered hfound rfl, ?_⟩⟩
        have hsend : Supplied (⟨w₂, .orderSend (closeRequest pos.ticket p tick), .ok (some res)⟩ :
            Event W (Mt5Op.Ans (F := F)) Exc) := fun res' h => by cases h; exact hasdict
        simpa using ⟨hsend, htick, hget⟩
      next hasdict =>
        exact ⟨[_, _, _], rfl, .inr ⟨⟨_, rfl⟩, _, List.mem_cons_self,
          fun hsend => hasdict (hsend res rfl)⟩⟩

theorem closeEach_turns (rows : List (Position F)) {t : Mt5Trail W F} :
    wp env (closeEach rows) (fun out t' => SuppliedOr (Turns rows) t.log out t'.log) t := by
  induction rows generalizing t with
  | nil => exact ⟨[], rfl, .inl ⟨_, rfl, .nil, by simp⟩⟩
  | cons pos rows ih =>
      unfold closeEach
      refine wp_seq (closePosition_turn pos) ?_ ?_
      swap
      · rintro x t₁ ⟨evs, hlog, h⟩
        refine ⟨evs, hlog, .inr ?_⟩
        rcases h with ⟨r, hr, -⟩ | ⟨-, hev⟩
        · cases hr
        · exact ⟨⟨x, rfl⟩, hev⟩
      rintro response t₁ ⟨evs, hlog, h⟩
      rcases h with ⟨r, hr, hturn, hevs⟩ | ⟨⟨x, hx⟩, -⟩
      swap
      · cases hx
      cases hr
      refine wp_seq ih ?_ ?_
      · rintro responses t₂ ⟨more, hlog', h⟩
        rcases h with ⟨rs, hrs, hturns, hmore⟩ | ⟨⟨x, hx⟩, -⟩
        swap
        · cases hx
        cases hrs
        refine ⟨more ++ evs, by rw [hlog', hlog, List.append_assoc], .inl ⟨_, rfl, ?_, ?_⟩⟩
        · exact .cons hturn hturns
        · intro ev hev
          exact (List.mem_append.mp hev).elim (hmore ev) (hevs ev)
      · rintro x t₂ ⟨more, hlog', h⟩
        refine ⟨more ++ evs, by rw [hlog', hlog, List.append_assoc], .inr ⟨⟨x, rfl⟩, ?_⟩⟩
        rcases h with ⟨r, hr, -⟩ | ⟨-, ev, hev, hmissing⟩
        · cases hr
        · exact ⟨ev, List.mem_append_left _ hev, hmissing⟩

/-- Two positions, and a terminal that quotes only the second one's symbol. -/
def halfQuoted : Answers Unit (Mt5Op.Ans (F := ℚ)) Exc :=
  fun w e =>
    match e with
    | .idempotencyGet _ => (.ok none, w)
    | .idempotencySet _ _ => (.ok (), w)
    | .symbolInfo _ => (.ok none, w)
    | .symbolInfoTick symbol => (.ok (if symbol = .str "EURUSD" then some ⟨1, 1⟩ else none), w)
    | .symbolSelect _ => (.ok true, w)
    | .orderCalcMargin _ _ _ _ => (.ok none, w)
    | .accountInfo => (.ok none, w)
    | .positionsGet filter =>
        let gold : Position ℚ := ⟨1, "XAUUSD", .buy, 1, 1, 0⟩
        let euro : Position ℚ := ⟨2, "EURUSD", .buy, 1, 1, 0⟩
        (.ok (some (match filter with
          | .ticket ticket => if ticket = 1 then [gold] else [euro]
          | _ => [gold, euro])), w)
    | .orderSend _ => (.ok (some { retcode := 10013, order := 7, deal := 7, volume := 1 }), w)
    | .lastError => (.ok "", w)

/-- A missing tick keeps the position behind it open. -/
theorem closeAllPositions_not_independent :
    ¬ wp (Env.ofAnswers halfQuoted) (closeAllPositions (F := ℚ))
      (fun out t' => ClosesAll out t'.log) ⟨(), []⟩ := by
  intro hwp
  have hplay := Prog.play_sound (Env.ofAnswers_self halfQuoted) (closeAllPositions (F := ℚ))
    ⟨(), []⟩
  obtain ⟨w, rows, responses, evs, -, hout, -⟩ := hplay.sound hwp
  have herror : ((closeAllPositions (F := ℚ)).play halfQuoted ⟨(), []⟩).1.isOk = false := by
    decide +kernel
  rw [hout] at herror
  cases herror

/-- Every listed position has its turn exactly when the terminal answers every call, with
    a tick for every symbol that is asked for and results that have `_asdict`. -/
theorem closeAllPositions_closesAll_iff (env : Env W (Mt5Op.Ans (F := F)) Exc) (w : W) :
    wp env closeAllPositions
      (fun out t' => ClosesAll out t'.log ↔ ∀ ev ∈ t'.log, Supplied ev) ⟨w, []⟩ := by
  refine wp_op_bind.mpr ⟨fun rows w₁ _ => ?_, fun x w₁ _ => ?_⟩
  · refine wp_mono (closeEach_turns (rows.getD [])) ?_
    rintro out t' ⟨evs, hlog, h⟩
    have hlog : t'.log = evs ++ [⟨w, .positionsGet .all, .ok rows⟩] := hlog
    constructor
    · rintro ⟨_, _, responses, _, -, rfl, -⟩
      rcases h with ⟨r, hr, hturns, hevs⟩ | ⟨⟨x, hx⟩, -⟩
      swap
      · cases hx
      intro ev hev
      rw [hlog] at hev
      rcases List.mem_append.mp hev with hev | hev
      · exact hevs ev hev
      · rw [List.mem_singleton.mp hev]
        trivial
    · intro hall
      rcases h with ⟨responses, rfl, hturns, -⟩ | ⟨-, ev, hev, hmissing⟩
      · exact ⟨w, rows, responses, evs, hlog, rfl, hturns⟩
      · refine absurd (hall ev ?_) hmissing
        rw [hlog]
        exact List.mem_append_left _ hev
  · constructor
    · rintro ⟨_, _, responses, _, -, hout, -⟩
      cases hout
    · intro hall
      exact absurd (hall _ List.mem_cons_self) id

end Mtrader.Connectors
