/-
  Mtrader.Execution.Hydration

  `_hydrate` on the rows of a database driver.

  `to_dict` writes its four timestamps as ISO text; a driver hands the columns out as
  datetime objects.  `created_at` and `updated_at` are parsed only where they are text,
  `opened_at` and `closed_at` wherever they are set.
-/

import Mtrader.Execution.Table

namespace Mtrader.Execution

open Py

variable {F : Type}

/-- The four timestamps of an order dict. -/
def OrderKey.isStamp : OrderKey → Bool
  | .openedAt | .closedAt | .createdAt | .updatedAt => true
  | _ => false

/-- ISO text as the datetime object it is the text of. -/
def asDatetime : Val F → Val F
  | .iso t => .datetime t
  | v => v

/-- The dict with the values of some keys as datetime objects instead of ISO text. -/
def nativeStamps (native : OrderKey → Bool) (data : OrderDict F) : OrderDict F :=
  fun k => if native k then (data k).map asDatetime else data k

theorem nativeStamps_of_isStamp_false {native : OrderKey → Bool} {o : Order F} {k : OrderKey}
    (hk : k.isStamp = false) : nativeStamps native o.toDict k = o.toDict k := by
  unfold nativeStamps
  split
  next =>
    cases k with
    | strategyId => cases hs : o.strategyId <;> simp [Order.toDict, optStr, asDatetime, hs]
    | modelId => cases hs : o.modelId <;> simp [Order.toDict, optStr, asDatetime, hs]
    | rejectionReason =>
        cases hs : o.rejectionReason <;> simp [Order.toDict, optStr, asDatetime, hs]
    | price => cases hx : o.price <;> simp [Order.toDict, optFloat, asDatetime, hx]
    | stopPrice => cases hx : o.stopPrice <;> simp [Order.toDict, optFloat, asDatetime, hx]
    | limitPrice => cases hx : o.limitPrice <;> simp [Order.toDict, optFloat, asDatetime, hx]
    | openedAt => cases hk
    | closedAt => cases hk
    | createdAt => cases hk
    | updatedAt => cases hk
    | _ => rfl
  next => rfl

variable [Prims F]

/-- Of a dict that has the order's other values, only the timestamps matter. -/
theorem hydrate_of_agrees {o : Order F} {data : OrderDict F}
    (h : ∀ k : OrderKey, k.isStamp = false → data k = o.toDict k) (nowC nowU : Time) :
    hydrate nowC nowU data = (do
      let openedAt ← optStamp data .openedAt
      let closedAt ← optStamp data .closedAt
      let createdAt ← stamp nowC data .createdAt
      let updatedAt ← stamp nowU data .updatedAt
      return { o with openedAt := openedAt, closedAt := closedAt, createdAt := createdAt,
                      updatedAt := updatedAt }) := by
  unfold hydrate
  simp only [Dict.item, Dict.get, Dict.getD, h .id rfl, h .clientOrderId rfl, h .accountId rfl,
    h .strategyId rfl, h .modelId rfl, h .symbol rfl, h .side rfl, h .orderType rfl,
    h .quantity rfl, h .filledQuantity rfl, h .price rfl, h .stopPrice rfl, h .limitPrice rfl,
    h .status rfl, h .rejectionReason rfl, h .commission rfl, h .swap rfl, h .profit rfl]
  simp [Order.toDict, asStr, asEnum, bind, Except.bind, pure, Except.pure]

omit [Prims F] in
/-- `created_at` and `updated_at` are read in either form. -/
theorem stamp_native {native : OrderKey → Bool} {data : OrderDict F} {k : OrderKey} {t : Time}
    (h : data k = some (.iso t)) (now : Time) : stamp now (nativeStamps native data) k = .ok t := by
  cases hk : native k <;> simp [stamp, nativeStamps, hk, h, asDatetime, fromisoformat]

/-- `opened_at` and `closed_at` are read as text, or where they are not set. -/
theorem optStamp_native {native : OrderKey → Bool} {data : OrderDict F} {k : OrderKey}
    {t : Option Time} (h : data k = some (optIso t)) (hk : native k = true → t = none) :
    optStamp (nativeStamps native data) k = .ok t := by
  cases hnative : native k with
  | false => exact optStamp_optIso (by simp [nativeStamps, hnative, h])
  | true =>
      have hnone : t = none := hk hnative
      subst hnone
      simp [optStamp, Dict.get, nativeStamps, hnative, h, optIso, asDatetime]

theorem optStamp_native_error {native : OrderKey → Bool} {data : OrderDict F} {k : OrderKey}
    {t : Time} (h : data k = some (.iso t)) (hk : native k = true) :
    optStamp (nativeStamps native data) k =
      .error (.typeError "fromisoformat: argument must be str") := by
  simp [optStamp, Dict.get, nativeStamps, hk, h, asDatetime, Val.truthy, fromisoformat]

/-- An order that has been opened. -/
def openedOrder : Order ℚ := { sampleOrder with openedAt := some 0 }

/-- With `opened_at` as a datetime object the row of an opened order cannot be read. -/
theorem hydrate_not_native :
    ¬ ∀ native : OrderKey → Bool,
      hydrate 0 0 (nativeStamps native openedOrder.toDict) = .ok openedOrder := by
  intro hall
  have hread := hall fun k => decide (k = .openedAt)
  rw [hydrate_of_agrees (o := openedOrder) fun k hk => nativeStamps_of_isStamp_false hk,
    optStamp_native_error (t := 0) rfl (by decide)] at hread
  cases hread

/-- `_hydrate` reads back what `to_dict` wrote, with some of the timestamps as datetime
    objects, exactly when neither `opened_at` nor `closed_at` is set to one. -/
theorem hydrate_nativeStamps_iff (nowC nowU : Time) (o : Order F) (native : OrderKey → Bool) :
    hydrate nowC nowU (nativeStamps native o.toDict) = .ok o ↔
      (native .openedAt = true → o.openedAt = none) ∧
        (native .closedAt = true → o.closedAt = none) := by
  rw [hydrate_of_agrees fun k hk => nativeStamps_of_isStamp_false hk]
  constructor
  · intro h
    obtain ⟨openedAt, hopened, h⟩ := bind_eq_ok.mp h
    obtain ⟨closedAt, hclosed, -⟩ := bind_eq_ok.mp h
    constructor
    · intro hk
      cases ht : o.openedAt with
      | none => rfl
      | some t =>
          have hiso : o.toDict .openedAt = some (.iso t) := by simp [Order.toDict, ht, optIso]
          rw [optStamp_native_error hiso hk] at hopened
          cases hopened
    · intro hk
      cases ht : o.closedAt with
      | none => rfl
      | some t =>
          have hiso : o.toDict .closedAt = some (.iso t) := by simp [Order.toDict, ht, optIso]
          rw [optStamp_native_error hiso hk] at hclosed
          cases hclosed
  · rintro ⟨hopened, hclosed⟩
    have hcreated : stamp nowC (nativeStamps native o.toDict) .createdAt = .ok o.createdAt :=
      stamp_native rfl nowC
    have hupdated : stamp nowU (nativeStamps native o.toDict) .updatedAt = .ok o.updatedAt :=
      stamp_native rfl nowU
    rw [optStamp_native rfl hopened, optStamp_native rfl hclosed, hcreated, hupdated]
    rfl

end Mtrader.Execution
