/-
  Mtrader.Storage.SaveOrder

  Concurrent `save_order` calls with one `client_order_id`.

  Whatever is retried, the table never holds two rows with it.  A call returns the
  id of its row unless another call commits one between the SELECT and the INSERT:
  the unique violation of the INSERT is no error that is retried.
-/

import Mtrader.Storage.Attempts

namespace Mtrader.Storage

open Coroutine Py Sql Mtrader.Execution

variable {F ι : Type} [DecidableEq ι]

-- ============================================================================
-- The table
-- ============================================================================

/-- An operation of `save_order`. -/
def PgOp.saves : PgOp F → Bool
  | .selectVersionForUpdate _ | .updateOrder _ _ _ => false
  | _ => true

theorem Clash.symm {r r' : Row F} (h : Clash r r') : Clash r' r := by
  rcases h with hid | ⟨hclient, hnull⟩
  · exact .inl hid.symm
  · refine .inr ⟨hclient.symm, ?_⟩
    rw [← hclient]
    exact hnull

/-- What `save_order` calls keep of the table: transactions only insert, and no two of
    the rows that are committed or about to be clash. -/
structure Distinct (w : Orders ι F) : Prop where
  inserts : ∀ i x, (w.tx i).pending = some x → ∃ row, x = .insert row
  rows : w.rows.Pairwise fun r r' => ¬ Clash r r'
  pending : ∀ i x, (w.tx i).pending = some x → ∀ r ∈ w.rows, ¬ Clash r x.row
  apart : ∀ i j x y, i ≠ j → (w.tx i).pending = some x → (w.tx j).pending = some y →
    ¬ Clash x.row y.row

section

variable {T : OrdersTable F} {w w' : Orders ι F} {i : ι}

/-- A session that has nothing pending any more. -/
theorem Distinct.of_none (h : Distinct w) (hrows : w'.rows = w.rows)
    (hother : ∀ j, j ≠ i → w'.tx j = w.tx j) (hself : (w'.tx i).pending = none) :
    Distinct w' := by
  have hold : ∀ j x, (w'.tx j).pending = some x → (w.tx j).pending = some x := by
    intro j x hx
    by_cases hj : j = i
    · rw [hj, hself] at hx
      cases hx
    · rw [← hother j hj]
      exact hx
  refine ⟨fun j x hx => h.inserts j x (hold j x hx), hrows ▸ h.rows, fun j x hx r hr => ?_,
    fun j j' x y hne hx hy => h.apart j j' x y hne (hold j x hx) (hold j' y hy)⟩
  rw [hrows] at hr
  exact h.pending j x (hold j x hx) r hr

theorem Distinct.setTx (h : Distinct w) {t : Tx (Row F)} (ht : t.pending = none) :
    Distinct (w.setTx i t) :=
  h.of_none rfl (fun _ hj => Db.setTx_tx_other t hj) (by rw [Db.setTx_tx_self, ht])

theorem Distinct.drop (h : Distinct w) : Distinct (w.drop i) := h.setTx (Tx.pending_drop _)

/-- A row is inserted that clashes with no other. -/
theorem Distinct.insert (h : Distinct w) {row : Row F} {lock : Option ℕ}
    (hrows : ∀ r ∈ w.rows, ¬ Clash r row) (hothers : Unhindered w i row) :
    Distinct (w.setTx i (.opened (some (.insert row)) lock)) := by
  have hpending : ∀ j x, ((w.setTx i (.opened (some (.insert row)) lock)).tx j).pending = some x →
      (j = i ∧ x = .insert row) ∨ (j ≠ i ∧ (w.tx j).pending = some x) := by
    intro j x hx
    by_cases hj : j = i
    · rw [hj, Db.setTx_tx_self] at hx
      exact .inl ⟨hj, (Option.some.inj hx).symm⟩
    · rw [Db.setTx_tx_other _ hj] at hx
      exact .inr ⟨hj, hx⟩
  refine ⟨fun j x hx => ?_, h.rows, fun j x hx r hr => ?_, fun j j' x y hne hx hy => ?_⟩
  · rcases hpending j x hx with ⟨-, rfl⟩ | ⟨-, hx⟩
    · exact ⟨row, rfl⟩
    · exact h.inserts j x hx
  · rcases hpending j x hx with ⟨-, rfl⟩ | ⟨-, hx⟩
    · exact hrows r hr
    · exact h.pending j x hx r hr
  · rcases hpending j x hx with ⟨rfl, rfl⟩ | ⟨hj, hx'⟩
    · rcases hpending j' y hy with ⟨rfl, -⟩ | ⟨hj', hy'⟩
      · exact absurd rfl hne
      · exact fun hclash => hothers j' hj' y hy' hclash.symm
    · rcases hpending j' y hy with ⟨rfl, rfl⟩ | ⟨-, hy'⟩
      · exact hothers j hj x hx'
      · exact h.apart j j' x y hne hx' hy'

/-- A transaction commits what it has pending. -/
theorem Distinct.commit (h : Distinct w) {write : Option (Write (Row F))} {lock : Option ℕ}
    (htx : w.tx i = .opened write lock) : Distinct (w.commit i write) := by
  have hother : ∀ j, j ≠ i → (w.commit i write).tx j = w.tx j :=
    fun j hj => Db.commit_tx_other write hj
  have hself : ((w.commit i write).tx i).pending = none := by rw [Db.commit_tx_self]; rfl
  cases write with
  | none => exact h.of_none rfl hother hself
  | some x =>
      have hx : (w.tx i).pending = some x := by rw [htx]; rfl
      obtain ⟨row, rfl⟩ := h.inserts i x hx
      have hrows : (w.commit i (some (.insert row))).rows = w.rows ++ [row] := rfl
      have hold : ∀ j y, ((w.commit i (some (.insert row))).tx j).pending = some y →
          j ≠ i ∧ (w.tx j).pending = some y := by
        intro j y hy
        by_cases hj : j = i
        · rw [hj, hself] at hy
          cases hy
        · rw [hother j hj] at hy
          exact ⟨hj, hy⟩
      refine ⟨fun j y hy => h.inserts j y (hold j y hy).2, ?_, fun j y hy r hr => ?_,
        fun j j' y z hne hy hz => h.apart j j' y z hne (hold j y hy).2 (hold j' z hz).2⟩
      · rw [hrows, List.pairwise_append]
        refine ⟨h.rows, List.pairwise_singleton _ _, fun r hr r' hr' => ?_⟩
        rw [List.mem_singleton.mp hr']
        exact h.pending i _ hx r hr
      · obtain ⟨hj, hy'⟩ := hold j y hy
        rw [hrows, List.mem_append, List.mem_singleton] at hr
        rcases hr with hr | rfl
        · exact h.pending j y hy' r hr
        · exact h.apart i j _ y (Ne.symm hj) hx hy'

/-- Every call that `save_order` makes keeps the rows distinct. -/
theorem Distinct.step (h : Distinct w) {e : PgOp F} (he : e.saves) (hstep : PgStep T w i e w') :
    Distinct w' := by
  cases hstep with
  | same _ => exact h
  | dropped _ => exact h.drop
  | idle => exact h.setTx rfl
  | opened _ => exact h.setTx rfl
  | inserted _ hrows hothers => exact h.insert hrows hothers
  | locked _ _ _ => cases he
  | updated _ _ _ _ _ => cases he
  | committed htx => exact h.commit htx

end

-- ============================================================================
-- One call
-- ============================================================================

section

variable [Prims F]

theorem saveOrder_saves (order : OrderDict F) :
    (saveOrder order).Always (.only fun e => e.saves = true) := by
  refine executeRetry_always (fun _ e he => ?_) ?_ 3
  · cases e with
    | selectVersionForUpdate id => cases he
    | updateOrder id sets version => cases he
    | _ => rfl
  · refine (Prog.always_op fun _ => rfl).bind fun existing => ?_
    cases existing with
    | some id => exact Prog.always_ret _
    | none =>
        refine (Prog.always_ofExcept _).bind fun columns => ?_
        exact (Prog.always_op fun _ => rfl).bind fun id => Prog.always_ret _

theorem saveOrder_met (order : OrderDict F) :
    (saveOrder order).Obeys (errorCount F)
      (fun out met => ∀ n, met = some n → ∀ x, out = .error x → x.retried → 3 ≤ n) (some 0) := by
  have hbody : Meets (saveInTransaction order) := by
    refine (Meets.op (.selectByClientOrderId _) nofun).bind fun existing => ?_
    cases existing with
    | some id => exact Meets.ret _
    | none =>
        refine (Meets.python _).bind fun columns => ?_
        exact (Meets.op (.insertOrder _ _) nofun).bind fun id => Meets.ret _
  exact executeRetry_met hbody.transaction.withConnection 3

omit [DecidableEq ι] in
/-- The INSERT stores the order's `client_order_id`. -/
theorem insertColumns_clientOrderId {order : OrderDict F} {clientOrderId : String}
    {columns : List (String × SqlExpr F)}
    (horder : order .clientOrderId = some (.str clientOrderId))
    (h : insertColumns order = .ok columns) {id : Val F} {now : Time} :
    Row.ofColumns id now columns "client_order_id" = .str clientOrderId := by
  simp only [insertColumns, bind_eq_ok] at h
  obtain ⟨quantity, -, filled, -, commission, -, swap, -, profit, -, hcolumns⟩ := h
  cases hcolumns
  have hclient : order.get .clientOrderId = .str clientOrderId := by rw [Dict.get, horder]; rfl
  simp [Row.ofColumns, SqlExpr.value, hclient]

/-- A row of the table has the client's id, and `s` is the text of its own. -/
def SavedAs (clientOrderId : String) (s : String) (rows : List (Row F)) : Prop :=
  ∃ r ∈ rows, r "client_order_id" = .str clientOrderId ∧ s = (r "id").toStr

theorem SavedAs.mono {clientOrderId s : String} {rows rows' : List (Row F)}
    (h : SavedAs clientOrderId s rows) (hsub : rows ⊆ rows') : SavedAs clientOrderId s rows' := by
  obtain ⟨r, hr, hrow⟩ := h
  exact ⟨r, hsub hr, hrow⟩

/-- The INSERT of session `i` can only fail with its connection: the table takes the
    row, and none of the rows that are committed clashes with it. -/
def Unraced (T : OrdersTable F) (w : Orders ι F) (i : ι) : PgOp F → Prop
  | .insertOrder id columns => (id = .none ∨ T.uuid id ≠ none) ∧
      ∀ row, Builds T w i id columns row → T.accepts row = true ∧ ∀ r ∈ w.rows, ¬ Clash r row
  | _ => True

/-- A step of `save_order` on distinct rows that is no raced INSERT. -/
def Undisturbed (T : OrdersTable F) (i : ι)
    (ev : Event (Orders ι F) (PgOp.Ans (F := F)) PgExc) : Prop :=
  ev.op.saves = true ∧ Distinct ev.pre ∧ Unraced T ev.pre i ev.op

/-- The answers of session `i` while nothing disturbs it. -/
def unracedEnv (T : OrdersTable F) (i : ι) : Env (Orders ι F) (PgOp.Ans (F := F)) PgExc :=
  fun w e a w' => pgEnv T i w e a w' ∧ Undisturbed T i ⟨w, e, a⟩

/-- The other calls leave the session alone and remove no row. -/
def savesRely (F : Type) (i : ι) : Rely (Orders ι F) where
  rel w w' := w'.tx i = w.tx i ∧ w.rows ⊆ w'.rows
  refl _ := ⟨rfl, fun _ hr => hr⟩
  trans h h' := ⟨h'.1.trans h.1, List.Subset.trans h.2 h'.2⟩

omit [Prims F] in
/-- The steps of another call. -/
theorem unracedEnv_rely {T : OrdersTable F} {i j : ι} (hij : j ≠ i) {w w' : Orders ι F}
    {e : PgOp F} {a : Except PgExc e.Ans} (h : unracedEnv T j w e a w') :
    (savesRely F i).rel w w' := by
  obtain ⟨henv, hsaves, hdistinct, -⟩ := h
  have hstep := pgEnv_step henv
  refine ⟨hstep.tx_other (Ne.symm hij), ?_⟩
  cases hstep with
  | @committed write lock htx =>
      cases write with
      | none => exact fun _ hr => hr
      | some x =>
          obtain ⟨row, rfl⟩ := hdistinct.inserts j x (by rw [htx]; rfl)
          exact List.subset_append_left _ _
  | updated _ _ _ _ _ => cases hsaves
  | _ => exact fun _ hr => hr

/-- What the body of the transaction leaves to be committed. -/
def SavesOnCommit (i : ι) (clientOrderId : String) (out : Except PgExc String)
    (w : Orders ι F) : Prop :=
  match out with
  | .ok s => ∃ (new : Option (Row F)) (lock : Option ℕ),
      w.tx i = .opened (new.map .insert) lock ∧
      SavedAs clientOrderId s (w.rows ++ new.toList)
  | .error x => x.retried

/-- What a call of `save_order` comes to. -/
def Saved (clientOrderId : String) (out : Except PgExc String) (w : Orders ι F) : Prop :=
  match out with
  | .ok s => SavedAs clientOrderId s w.rows
  | .error x => x.retried

omit [DecidableEq ι] in
theorem savesOnCommit_stable (i : ι) (clientOrderId : String) (out : Except PgExc String) :
    (savesRely F i).Stable (SavesOnCommit i clientOrderId out) := by
  rintro w w' ⟨htx, hsub⟩ h
  cases out with
  | ok s =>
      obtain ⟨new, lock, hnew, hsaved⟩ := h
      refine ⟨new, lock, htx.trans hnew, hsaved.mono fun r hr => ?_⟩
      rw [List.mem_append] at hr ⊢
      exact hr.imp_left fun hr => hsub hr
  | error x => exact h

omit [DecidableEq ι] in
theorem saved_stable (i : ι) (clientOrderId : String) (out : Except PgExc String) :
    (savesRely F i).Stable (Saved clientOrderId out) := by
  rintro w w' ⟨-, hsub⟩ h
  cases out with
  | ok s => exact SavedAs.mono h hsub
  | error x => exact h

theorem saveInTransaction_secures {T : OrdersTable F} {i : ι} {order : OrderDict F}
    {clientOrderId : String} {columns : List (String × SqlExpr F)}
    (horder : order .clientOrderId = some (.str clientOrderId))
    (hcolumns : insertColumns order = .ok columns) {w : Orders ι F}
    (hw : w.tx i = .opened none none) :
    (saveInTransaction order).Secures (unracedEnv T i) (savesRely F i)
      (SavesOnCommit i clientOrderId) w := by
  have hopened : (savesRely F i).Stable fun w => w.tx i = .opened none none :=
    fun w w' hrel htx => hrel.1.trans htx
  have hretried : ∀ (x : PgExc) (w : Orders ι F), x.retried →
      (.raise x : RepoM F String).Secures (unracedEnv T i) (savesRely F i)
        (SavesOnCommit i clientOrderId) w := fun x w hx _ _ => hx
  have hclient : order.get .clientOrderId = .str clientOrderId := by rw [Dict.get, horder]; rfl
  refine Prog.secures_op_bind hopened hw (fun w existing w₁ htx hselect => ?_)
    fun w x w₁ _ hselect => hretried x w₁ hselect.1.1
  obtain ⟨⟨rfl, hfound⟩, -⟩ := hselect
  rw [Db.view_of_none (by rw [htx]; rfl), hclient] at hfound
  cases existing with
  | some id =>
      obtain ⟨r, hr, hrow, -, rfl⟩ := hfound
      refine Prog.secures_ret (savesOnCommit_stable i clientOrderId _) ?_ fun _ h => h
      exact ⟨none, none, htx, r, by simpa using hr, hrow, rfl⟩
  | none =>
      rw [hcolumns]
      refine Prog.secures_op_bind hopened htx (fun w id w₂ htx hinsert => ?_)
        fun w x w₂ htx hinsert => hretried x w₂ ?_
      · obtain ⟨⟨row, lock, ⟨id', now, hrow, -⟩, -, -, -, rfl, -, rfl⟩, -⟩ := hinsert
        refine Prog.secures_ret (savesOnCommit_stable i clientOrderId _) ?_ fun _ h => h
        refine ⟨some row, lock, Db.setTx_tx_self _, row, ?_, ?_, rfl⟩
        · exact List.mem_append_right _ (List.mem_singleton_self row)
        · rw [hrow]
          exact insertColumns_clientOrderId horder hcolumns
      · obtain ⟨herror, -, -, huuid, hunraced⟩ := hinsert
        rcases herror with ⟨hx, -⟩ | ⟨-, -, row, hrow, r, hr, hclash⟩ | ⟨-, -, hbad⟩
        · exact hx
        · rw [Db.view_of_none (by rw [htx]; rfl)] at hr
          exact absurd hclash ((hunraced row hrow).2 r hr)
        · rcases hbad with ⟨hnull, hnone⟩ | ⟨row, hrow, hrejected⟩
          · exact absurd hnone (huuid.resolve_left hnull)
          · rw [(hunraced row hrow).1] at hrejected
            cases hrejected

/-- A call whose INSERT is not raced returns the id of its row, unless it gives up on
    connection errors. -/
theorem saveOrder_secures {T : OrdersTable F} {i : ι} {order : OrderDict F}
    {clientOrderId : String} {columns : List (String × SqlExpr F)}
    (horder : order .clientOrderId = some (.str clientOrderId))
    (hcolumns : insertColumns order = .ok columns) (w : Orders ι F) :
    (saveOrder order).Secures (unracedEnv T i) (savesRely F i) (Saved clientOrderId) w := by
  refine executeRetry_secures (fun h => h.1) (fun x w hx => hx) (fun w => ?_) 2 w
  refine attempt_secures (fun h => h.1) (saved_stable i clientOrderId)
    (fun w hw => saveInTransaction_secures horder hcolumns hw) ?_ (fun x w hx => hx)
    (fun x w hx => hx) w
  rintro s w write lock ⟨new, lock', htx, hsaved⟩ hopened
  rw [htx] at hopened
  cases hopened
  cases new with
  | none =>
      rw [Option.toList_none, List.append_nil] at hsaved
      exact hsaved
  | some row => exact hsaved

end

-- ============================================================================
-- Concurrent calls
-- ============================================================================

/-- No two rows have the client's id. -/
def AtMostOne (clientOrderId : String) (rows : List (Row F)) : Prop :=
  rows.Pairwise fun r r' =>
    ¬ (r "client_order_id" = .str clientOrderId ∧ r' "client_order_id" = .str clientOrderId)

/-- The configurations of `save_order` calls on one pool. -/
abbrev SaveConfig (ι F : Type) : Type :=
  Config ι (Orders ι F) (PgOp.Ans (F := F)) PgExc String

variable [Prims F]

/-- Call `i` has not ended, or it has returned the id of the row, or it has met three
    connection errors. -/
def Returns (clientOrderId : String) (h : PgHistory ι F) (c : SaveConfig ι F) (i : ι) : Prop :=
  (∀ s, c.pool i = .ret s → SavedAs clientOrderId s c.world.rows) ∧
    ∀ x, c.pool i = .raise x → 3 ≤ connectionErrors i h

/-- Concurrent calls of `save_order`, each on its order, on a table without clashes. -/
structure SaveRun (T : OrdersTable F) (orders : ι → OrderDict F) (w₀ : Orders ι F)
    (h : PgHistory ι F) (c : SaveConfig ι F) : Prop where
  fresh : ∀ i, w₀.tx i = .idle
  unique : w₀.rows.Pairwise fun r r' => ¬ Clash r r'
  run : Run (fun _ => true) (pgEnv T) ⟨w₀, fun i => saveOrder (orders i), none⟩ h c

section

variable {T : OrdersTable F} {orders : ι → OrderDict F} {w₀ : Orders ι F} {h : PgHistory ι F}
variable {c : SaveConfig ι F} {clientOrderId : String}

/-- Only the calls of `save_order` are made. -/
theorem SaveRun.saves (hrun : SaveRun T orders w₀ h c) : ∀ entry ∈ h, entry.2.op.saves := by
  intro entry hentry
  obtain ⟨newer, older, rfl⟩ := List.append_of_mem hentry
  obtain ⟨i, ev⟩ := entry
  exact hrun.run.may (saveOrder_saves (orders i) ()) (List.suffix_append newer _)

/-- No sleep raises. -/
theorem SaveRun.sleeps (hrun : SaveRun T orders w₀ h c) :
    ∀ entry ∈ h, sleepRaised entry.2 = false := by
  intro entry hentry
  obtain ⟨newer, older, rfl⟩ := List.append_of_mem hentry
  obtain ⟨i, ev⟩ := entry
  obtain ⟨c₁, c₂, -, hstep⟩ := hrun.run.entry (List.suffix_append newer _)
  cases hstep with
  | @mk e k a w' _ _ henv =>
      cases e with
      | sleep n =>
          obtain ⟨rfl, -⟩ := henv
          rfl
      | _ => rfl

/-- The rows are distinct throughout. -/
theorem SaveRun.distinct (hrun : SaveRun T orders w₀ h c) :
    Distinct c.world ∧ ∀ entry ∈ h, Distinct entry.2.pre := by
  have hrestricted := hrun.run.restrict (P := fun _ ev => ev.op.saves = true) hrun.saves
  refine hrestricted.keeps ?_ fun i w e a w' hI henv => hI.step henv.2 (pgEnv_step henv.1)
  refine ⟨fun i x hx => ?_, hrun.unique, fun i x hx => ?_, fun i j x y _ hx => ?_⟩
  all_goals
    rw [hrun.fresh i] at hx
    cases hx

/-- Whatever is retried, at most one row is ever stored. -/
theorem SaveRun.atMostOne (hrun : SaveRun T orders w₀ h c) :
    AtMostOne clientOrderId c.world.rows := by
  refine hrun.distinct.1.rows.imp ?_
  rintro r r' hclash ⟨hr, hr'⟩
  refine hclash (.inr ⟨hr.trans hr'.symm, ?_⟩)
  rw [hr]
  exact nofun

/-- If no INSERT is raced, every call returns the id of the row. -/
theorem SaveRun.returns (hrun : SaveRun T orders w₀ h c)
    (horders : ∀ i, orders i .clientOrderId = some (.str clientOrderId))
    (hcolumns : ∀ i, ∃ columns, insertColumns (orders i) = .ok columns)
    (hunraced : ∀ entry ∈ h, Unraced T entry.2.pre entry.1 entry.2.op) (i : ι) :
    Returns clientOrderId h c i := by
  have hcond : ∀ entry ∈ h, Undisturbed T entry.1 entry.2 := fun entry hentry =>
    ⟨hrun.saves entry hentry, hrun.distinct.2 entry hentry, hunraced entry hentry⟩
  have hrestricted : Run (fun _ => true) (unracedEnv T)
      ⟨w₀, fun i => saveOrder (orders i), none⟩ h c :=
    hrun.run.restrict (P := Undisturbed T) hcond
  have hstart : ∀ i, (saveOrder (orders i)).Secures (unracedEnv T i) (savesRely F i)
      (Saved clientOrderId) w₀ := by
    intro i
    obtain ⟨columns, hcolumns⟩ := hcolumns i
    exact saveOrder_secures (horders i) hcolumns w₀
  have hrely : ∀ (i j : ι) (w : Orders ι F) (e : PgOp F) (a : Except PgExc e.Ans)
      (w' : Orders ι F), j ≠ i → unracedEnv T j w e a w' → (savesRely F i).rel w w' :=
    fun i j w e a w' hij henv => unracedEnv_rely hij henv
  refine ⟨fun s hs => ?_, fun x hx => ?_⟩
  · exact hrestricted.secures_ret (Q := fun _ => Saved clientOrderId) hrely hstart hs
  · have hretried : x.retried :=
      hrestricted.secures_raise (Q := fun _ => Saved clientOrderId) hrely hstart hx
    have hmet := hrun.run.obeys (saveOrder_met (orders i))
    rw [hx] at hmet
    exact hmet _ (ghost_errorCount i hrun.sleeps) x rfl hretried

end

/-- Two orders with one `client_order_id`. -/
def twins (i : Fin 2) : OrderDict ℚ
  | .id => some (.str (if i.val = 0 then "o1" else "o2"))
  | .clientOrderId => some (.str "c1")
  | _ => none

/-- An empty table. -/
def noOrders : Orders (Fin 2) ℚ := ⟨[], fun _ => .idle⟩

/-- A schedule of the two calls. -/
def twinsRun (schedule : List (Fin 2)) :
    Option (PgHistory (Fin 2) ℚ × SaveConfig (Fin 2) ℚ) :=
  Config.follow (fun _ => true) pgAnswers schedule
    ([], ⟨noOrders, fun i => saveOrder (twins i), none⟩)

/-- A schedule whose outcome passes a check shows that there is such a run. -/
theorem exists_twinsRun (schedule : List (Fin 2))
    (check : PgHistory (Fin 2) ℚ → SaveConfig (Fin 2) ℚ → Bool)
    (hf : (twinsRun schedule).any fun hc => check hc.1 hc.2) :
    ∃ h c, SaveRun sampleOrdersTable twins noOrders h c ∧ check h c = true := by
  obtain ⟨⟨h, c⟩, hrun, hcheck⟩ := (Option.any_eq_true _ _).mp hf
  exact ⟨h, c, ⟨fun _ => rfl, List.Pairwise.nil,
    Config.follow_sound (fun _ _ _ _ _ => pgAnswers_sound) .nil hrun⟩, hcheck⟩

/-- Both calls find no row, and the second INSERT raises. -/
theorem saveOrder_not_always_returns :
    ¬ ∀ (T : OrdersTable ℚ) (orders : Fin 2 → OrderDict ℚ) (w₀ : Orders (Fin 2) ℚ)
        (h : PgHistory (Fin 2) ℚ) (c : SaveConfig (Fin 2) ℚ) (clientOrderId : String),
      SaveRun T orders w₀ h c → (∀ i, orders i .clientOrderId = some (.str clientOrderId)) →
        AtMostOne clientOrderId c.world.rows ∧ ∀ i, Returns clientOrderId h c i := by
  intro hall
  obtain ⟨h, c, hrun, hraised⟩ := exists_twinsRun [0, 0, 0, 1, 1, 1, 0, 0, 0, 1, 1, 1]
    (fun h c => (match c.pool 1 with | .raise _ => true | _ => false) &&
      connectionErrors 1 h == 0) (by decide +kernel)
  rw [Bool.and_eq_true, beq_iff_eq] at hraised
  obtain ⟨hraised, hnone⟩ := hraised
  have hreturns := ((hall _ _ _ h c "c1" hrun fun _ => rfl).2 1).2
  rw [hnone] at hreturns
  split at hraised
  next x hx => exact absurd (hreturns x hx) (by decide)
  next => cases hraised

/-- Whatever is retried, at most one row is ever stored for the `client_order_id`; and
    every call that does not meet three connection errors returns its id, if the table
    takes the rows of the INSERTs and no INSERT finds a row committed that clashes. -/
theorem saveOrder_idempotent {T : OrdersTable F} {orders : ι → OrderDict F} {w₀ : Orders ι F}
    {h : PgHistory ι F} {c : SaveConfig ι F} {clientOrderId : String}
    (hrun : SaveRun T orders w₀ h c)
    (horders : ∀ i, orders i .clientOrderId = some (.str clientOrderId)) :
    AtMostOne clientOrderId c.world.rows ∧
      ((∀ i, ∃ columns, insertColumns (orders i) = .ok columns) →
        (∀ entry ∈ h, Unraced T entry.2.pre entry.1 entry.2.op) →
          ∀ i, Returns clientOrderId h c i) :=
  ⟨hrun.atMostOne, fun hcolumns hunraced i => hrun.returns horders hcolumns hunraced i⟩

omit [DecidableEq ι] [Prims F] in
/-- An INSERT into an empty table is not raced. -/
theorem unraced_of_empty {T : OrdersTable F} {w : Orders ι F} {i : ι} {id : Val F}
    {columns : List (String × SqlExpr F)} (huuid : T.uuid id ≠ none)
    (haccepts : ∀ row, T.accepts row = true) (hrows : w.rows = []) :
    Unraced T w i (.insertOrder id columns) := by
  refine ⟨.inr huuid, fun row _ => ⟨haccepts row, fun r hr => ?_⟩⟩
  rw [hrows] at hr
  cases hr

/-- An INSERT of a text id comes into an empty table. -/
def intoEmpty (ev : Event (Orders (Fin 2) ℚ) (PgOp.Ans (F := ℚ)) PgExc) : Bool :=
  match ev.op with
  | .insertOrder (.str _) _ => ev.pre.rows.isEmpty
  | .insertOrder _ _ => false
  | _ => true

/-- Two calls of which the second finds the row of the first. -/
theorem saveOrder_idempotent_twins :
    ∃ h c, SaveRun sampleOrdersTable twins noOrders h c ∧
      (∃ s, c.pool 1 = .ret s) ∧ AtMostOne "c1" c.world.rows ∧ ∀ i, Returns "c1" h c i := by
  obtain ⟨h, c, hrun, hcheck⟩ := exists_twinsRun [0, 0, 0, 0, 0, 0, 1, 1, 1, 1, 1]
    (fun h c => (c.pool 1).returned && h.all fun entry => intoEmpty entry.2) (by decide +kernel)
  rw [Bool.and_eq_true, List.all_eq_true] at hcheck
  obtain ⟨hreturned, hinserts⟩ := hcheck
  have hsettled := saveOrder_idempotent hrun (fun _ => rfl)
  refine ⟨h, c, hrun, Prog.eq_ret_of_returned hreturned, hsettled.1, hsettled.2 ?_ ?_⟩
  · intro i
    exact ⟨_, rfl⟩
  · rintro ⟨i, w, e, a⟩ hentry
    have hinsert := hinserts _ hentry
    cases e with
    | insertOrder id columns =>
        cases id with
        | str id =>
            have hid : sampleOrdersTable.uuid (.str id) ≠ none := Option.some_ne_none _
            exact unraced_of_empty hid (fun _ => rfl) (List.isEmpty_iff.mp hinsert)
        | _ => cases hinsert
    | _ => trivial

end Mtrader.Storage
