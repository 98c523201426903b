/-
  Mtrader.Storage.UpdateStatement

  The text and the arguments of the UPDATE in `update_order_status`.

  The loop over `updates` numbers a placeholder for each value but the text `NOW()`, which
  it writes into the statement: that is how it sets `updated_at`.  A status or a keyword
  argument that is this text is taken for it too.
-/

import Mtrader.Sql.Update
import Mtrader.Storage.Attempts

namespace Mtrader.Storage

open Coroutine Py Sql

variable {F : Type}

-- ============================================================================
-- The statement that is built
-- ============================================================================

/-- What is sent: the text, and the arguments of its placeholders. -/
structure Statement (F : Type) where
  sql : String
  vals : List (Val F)

/-- The variables of the loop over `updates`. -/
structure Building (F : Type) where
  setParts : List String
  vals : List (Val F)
  idx : ℕ

/-- `v == "NOW()"`. -/
def isNow : Val F → Bool
  | .str s => s = "NOW()"
  | _ => false

/-- The body of the loop. -/
def Building.add (b : Building F) (kv : String × Val F) : Building F :=
  if isNow kv.2 then { b with setParts := b.setParts ++ [kv.1 ++ "=NOW()"] }
  else
    { setParts := b.setParts ++ [kv.1 ++ "=$" ++ toString b.idx]
      vals := b.vals ++ [kv.2]
      idx := b.idx + 1 }

/-- `sql` and `vals` of `update_order_status`, for the version that was read. -/
def updateStatement (orderId status : String) (version : ℤ) (kwargs : List (String × Val F)) :
    Statement F :=
  let b := (updatesOf status version kwargs).foldl Building.add
    { setParts := [], vals := [.str orderId], idx := 2 }
  { sql := "UPDATE orders SET " ++ ", ".intercalate b.setParts ++
      " WHERE id=$1::uuid AND version=$" ++ toString b.idx
    vals := b.vals ++ [.int version] }

-- ============================================================================
-- What it says
-- ============================================================================

/-- The statement with its arguments. -/
def Statement.meaning (s : Statement F) : Option (UpdateStmt (Val F)) :=
  (UpdateStmt.read s.sql).bind fun u => u.fill s.vals

/-- `WHERE id=… AND version=…` -/
def guards (orderId : String) (version : ℤ) : List (Condition (Val F)) :=
  [{ column := "id", param := .str orderId, cast := some "uuid" },
    { column := "version", param := .int version }]

/-- What the loop makes of a value. -/
def rhsOf (v : Val F) : Rhs (Val F) := if isNow v then .now else .param v

/-- The statement as it is built from `updates`. -/
def built (orderId : String) (version : ℤ) (updates : List (String × Val F)) :
    UpdateStmt (Val F) where
  table := "orders"
  sets := updates.map fun kv => (kv.1, rhsOf kv.2)
  conditions := guards orderId version

/-- Keyword arguments for other columns than those that are set anyway. -/
structure Kwargs (F : Type) where
  entries : List (String × Val F)
  nodup : (entries.map Prod.fst).Nodup
  columns : ∀ kw ∈ entries, IsName kw.1 ∧ kw.1 ∉ ["status", "updated_at", "version"]

/-- Every column is set to the value that was given for it. -/
def intended (orderId status : String) (version : ℤ) (kwargs : Kwargs F) :
    UpdateStmt (Val F) where
  table := "orders"
  sets := ("status", .param (.str status)) :: ("updated_at", .now) ::
    ("version", .param (.int (version + 1))) ::
    kwargs.entries.map fun kw => (kw.1, .param kw.2)
  conditions := guards orderId version

/-- The placeholders of the text are `$1` to `$n` for the `n` arguments, and each stands
    for what its argument was appended for. -/
def Statement.Aligned (s : Statement F) (u : UpdateStmt (Val F)) : Prop :=
  ∃ text, UpdateStmt.read s.sql = some text ∧ text.params.Perm (List.range' 1 s.vals.length) ∧
    text.fill s.vals = some u

-- ============================================================================
-- The loop
-- ============================================================================

/-- The sets with their placeholders, from `idx` on. -/
def numbered (idx : ℕ) : List (String × Val F) → List (String × Rhs ℕ)
  | [] => []
  | kv :: updates =>
      if isNow kv.2 then (kv.1, .now) :: numbered idx updates
      else (kv.1, .param idx) :: numbered (idx + 1) updates

/-- The values that get a placeholder. -/
def bound : List (String × Val F) → List (Val F)
  | [] => []
  | kv :: updates => if isNow kv.2 then bound updates else kv.2 :: bound updates

/-- The text, the arguments and the index after the loop. -/
theorem foldl_add (updates : List (String × Val F)) (b : Building F) :
    updates.foldl Building.add b =
      { setParts := b.setParts ++ (numbered b.idx updates).map setText
        vals := b.vals ++ bound updates
        idx := b.idx + (bound updates).length } := by
  induction updates generalizing b with
  | nil => simp [numbered, bound]
  | cons kv updates ih =>
      rw [List.foldl_cons, ih, Building.add, numbered, bound]
      split
      next hnow =>
        have htext : setText (kv.1, Rhs.now) = kv.1 ++ "=NOW()" := String.append_assoc ..
        simp only [List.map_cons, htext, List.append_assoc, List.singleton_append]
      next hvalue =>
        have hsign : "=$" = "=" ++ "$" := rfl
        have htext : setText (kv.1, Rhs.param b.idx) = kv.1 ++ "=$" ++ toString b.idx := by
          rw [hsign]
          simp only [setText, Rhs.text, placeholder, String.append_assoc]
        simp only [List.map_cons, htext, List.append_assoc, List.singleton_append,
          List.length_cons]
        congr 1
        omega

/-- The placeholders are numbered one after the other. -/
theorem params_numbered (idx : ℕ) (updates : List (String × Val F)) :
    ((numbered idx updates).flatMap fun set => set.2.params) =
      List.range' idx (bound updates).length := by
  induction updates generalizing idx with
  | nil => rfl
  | cons kv updates ih =>
      rw [numbered, bound]
      split
      next => rw [List.flatMap_cons, ih]; rfl
      next => rw [List.flatMap_cons, ih, List.length_cons, List.range'_succ]; rfl

/-- Placeholder `idx` stands for the first value that is bound. -/
theorem fill_numbered (before after : List (Val F)) (updates : List (String × Val F)) :
    (numbered (before.length + 1) updates).mapM (fillSet (before ++ bound updates ++ after)) =
      some (updates.map fun kv => (kv.1, rhsOf kv.2)) := by
  induction updates generalizing before with
  | nil => rfl
  | cons kv updates ih =>
      rw [numbered, bound]
      split
      next hnow =>
        rw [List.mapM_cons, ih]
        simp [fillSet, Rhs.fill, rhsOf, hnow]
      next hvalue =>
        have hrest := ih (before ++ [kv.2])
        rw [List.length_append, List.append_assoc before [kv.2]] at hrest
        have harg : argument (before ++ kv.2 :: bound updates ++ after) (before.length + 1) =
            some kv.2 := by
          rw [argument, List.append_assoc, List.getElem?_append_right (le_refl _), Nat.sub_self]
          rfl
        have hrhs : rhsOf kv.2 = .param kv.2 := if_neg hvalue
        simp only [List.singleton_append, List.length_singleton] at hrest
        rw [List.mapM_cons, fillSet, Rhs.fill, harg, hrest, List.map_cons, hrhs]
        rfl

-- ============================================================================
-- The text and its arguments
-- ============================================================================

theorem dictSet_new {V : Type} {d : List (String × V)} {k : String} (hk : k ∉ d.map Prod.fst)
    (v : V) : dictSet d k v = d ++ [(k, v)] := by
  induction d with
  | nil => rfl
  | cons kv d ih =>
      rw [List.map_cons, List.mem_cons, not_or] at hk
      rw [dictSet, if_neg (Ne.symm hk.1), ih hk.2]
      rfl

/-- The keyword arguments follow what is set anyway. -/
theorem updatesOf_eq (status : String) (version : ℤ) (kwargs : Kwargs F) :
    updatesOf status version kwargs.entries =
      [("status", .str status), ("updated_at", .str "NOW()"), ("version", .int (version + 1))] ++
        kwargs.entries := by
  have hfold : ∀ (d kws : List (String × Val F)), ((d ++ kws).map Prod.fst).Nodup →
      kws.foldl (fun updates kw => dictSet updates kw.1 kw.2) d = d ++ kws := by
    intro d kws
    induction kws generalizing d with
    | nil => intro _; rw [List.append_nil]; rfl
    | cons kw kws ih =>
        intro hnodup
        have hnew : kw.1 ∉ d.map Prod.fst := by
          rw [List.map_append, List.nodup_append] at hnodup
          exact fun hmem => hnodup.2.2 kw.1 hmem kw.1 List.mem_cons_self rfl
        rw [List.foldl_cons, dictSet_new hnew, ih, List.append_assoc]
        · rfl
        · rw [List.append_assoc]
          exact hnodup
  refine hfold _ _ ?_
  rw [List.map_append, List.nodup_append]
  refine ⟨by simp, kwargs.nodup, fun k hk k' hk' heq => ?_⟩
  obtain ⟨kw, hkw, rfl⟩ := List.mem_map.mp hk'
  rw [heq] at hk
  exact (kwargs.columns kw hkw).2 hk

section

variable {orderId status : String} {version : ℤ} {kwargs : Kwargs F}

theorem isName_updatesOf : ∀ kv ∈ updatesOf status version kwargs.entries, IsName kv.1 := by
  rw [updatesOf_eq, List.forall_mem_append]
  refine ⟨?_, fun kw hkw => (kwargs.columns kw hkw).1⟩
  simp only [List.forall_mem_cons, List.not_mem_nil, false_imp_iff, implies_true, and_true]
  exact ⟨by decide, by decide, by decide⟩

/-- The statement with its placeholders. -/
def numberedStmt (updates : List (String × Val F)) : UpdateStmt ℕ where
  table := "orders"
  sets := numbered 2 updates
  conditions := [{ column := "id", param := 1, cast := some "uuid" },
    { column := "version", param := 2 + (bound updates).length }]

theorem updateStatement_eq (kws : List (String × Val F)) :
    updateStatement orderId status version kws =
      { sql := "UPDATE orders SET " ++
          ", ".intercalate ((numbered 2 (updatesOf status version kws)).map setText) ++
          " WHERE id=$1::uuid AND version=$" ++
          toString (2 + (bound (updatesOf status version kws)).length)
        vals := [.str orderId] ++ bound (updatesOf status version kws) ++ [.int version] } := by
  unfold updateStatement
  rw [foldl_add]
  rfl

theorem text_numberedStmt (updates : List (String × Val F)) : (numberedStmt updates).text =
    "UPDATE orders SET " ++ ", ".intercalate ((numbered 2 updates).map setText) ++
      " WHERE id=$1::uuid AND version=$" ++ toString (2 + (bound updates).length) := by
  have hid : Condition.text { column := "id", param := 1, cast := some "uuid" } =
      "id=$1::uuid" := by decide
  have hversion : ∀ n : ℕ, Condition.text { column := "version", param := n } =
      "version=$" ++ toString n := by
    intro n
    have hsign : "version=$" = "version" ++ "=" ++ "$" := rfl
    rw [hsign, Condition.text, Condition.rhs, placeholder, String.append_empty,
      String.append_assoc]
    simp only [String.append_assoc]
  have hupdate : "UPDATE orders SET " = "UPDATE " ++ "orders" ++ " SET " := rfl
  have hwhere : " WHERE id=$1::uuid AND version=$" =
      " WHERE " ++ ("id=$1::uuid" ++ " AND " ++ "version=$") := rfl
  rw [UpdateStmt.text, numberedStmt, List.map_cons, List.map_cons, List.map_nil, hid, hversion,
    String.intercalate_cons_cons, String.intercalate_singleton, hupdate, hwhere]
  simp only [String.append_assoc]

theorem isName_numbered (idx : ℕ) {updates : List (String × Val F)}
    (h : ∀ kv ∈ updates, IsName kv.1) : ∀ set ∈ numbered idx updates, IsName set.1 := by
  induction updates generalizing idx with
  | nil => exact nofun
  | cons kv updates ih =>
      have hrest : ∀ kv ∈ updates, IsName kv.1 := fun kv hkv => h kv (List.mem_cons_of_mem _ hkv)
      rw [numbered]
      split
      next => exact List.forall_mem_cons.mpr ⟨h kv List.mem_cons_self, ih idx hrest⟩
      next => exact List.forall_mem_cons.mpr ⟨h kv List.mem_cons_self, ih (idx + 1) hrest⟩

theorem numberedStmt_wellFormed :
    (numberedStmt (updatesOf status version kwargs.entries)).WellFormed where
  table := by
    show IsName "orders"
    decide
  sets_ne := by
    rw [numberedStmt, updatesOf_eq]
    show numbered 2 (_ :: _) ≠ []
    rw [numbered]
    split <;> exact List.cons_ne_nil _ _
  sets := isName_numbered 2 isName_updatesOf
  conditions_ne := List.cons_ne_nil _ _
  conditions := by
    have hid : IsName "id" ∧ IsName "version" ∧ IsName "uuid" := by decide
    refine List.forall_mem_cons.mpr ⟨⟨hid.1, ?_⟩, List.forall_mem_singleton.mpr ⟨hid.2.1, nofun⟩⟩
    rintro type ⟨⟩
    exact hid.2.2

/-- The text is read as the statement with its placeholders. -/
theorem read_sql : UpdateStmt.read (updateStatement orderId status version kwargs.entries).sql =
    some (numberedStmt (updatesOf status version kwargs.entries)) := by
  rw [updateStatement_eq]
  show UpdateStmt.read (_ ++ _ ++ _ ++ _) = _
  rw [← text_numberedStmt]
  exact UpdateStmt.read_text numberedStmt_wellFormed

theorem fill_numberedStmt (updates : List (String × Val F)) :
    (numberedStmt updates).fill ([.str orderId] ++ bound updates ++ [.int version]) =
      some (built orderId version updates) := by
  have hsets := fill_numbered [.str orderId] [.int version] updates
  have hid : argument ([.str orderId] ++ bound updates ++ [.int version]) 1 =
      some (Val.str orderId : Val F) := rfl
  have hversion : argument ([.str orderId] ++ bound updates ++ [.int version])
      (2 + (bound updates).length) = some (Val.int version : Val F) := by
    have hlength : ([Val.str orderId] ++ bound updates).length = 1 + (bound updates).length := by
      rw [List.length_append, List.length_singleton]
    rw [Nat.add_comm, show (bound updates).length + 2 = 1 + (bound updates).length + 1 by omega,
      argument, ← hlength, List.getElem?_append_right (le_refl _), Nat.sub_self]
    rfl
  have hconditions : (numberedStmt updates).conditions.mapM
      (Condition.fill ([.str orderId] ++ bound updates ++ [.int version])) =
        some (guards orderId version) := by
    rw [numberedStmt, List.mapM_cons, List.mapM_cons, List.mapM_nil, Condition.fill, hid,
      Condition.fill, hversion]
    rfl
  rw [UpdateStmt.fill, hconditions]
  show (numbered 2 updates).mapM _ >>= _ = _
  rw [show (numbered 2 updates).mapM _ = _ from hsets]
  rfl

/-- The placeholders are those of the arguments: the order's id, the values, the version. -/
theorem params_numberedStmt (updates : List (String × Val F)) :
    (numberedStmt updates).params.Perm (List.range' 1 ((bound updates).length + 2)) := by
  have hparams : (numberedStmt updates).params =
      List.range' 2 (bound updates).length ++ [1, 2 + (bound updates).length] := by
    rw [UpdateStmt.params, numberedStmt, params_numbered]
    rfl
  have hrange : List.range' 1 ((bound updates).length + 2) =
      1 :: (List.range' 2 (bound updates).length ++ [2 + (bound updates).length]) := by
    rw [List.range'_succ, List.range'_concat, Nat.one_mul]
  rw [hparams, hrange]
  exact List.perm_middle

theorem vals_updateStatement : (updateStatement orderId status version kwargs.entries).vals =
    [.str orderId] ++ bound (updatesOf status version kwargs.entries) ++ [.int version] :=
  congrArg Statement.vals (updateStatement_eq kwargs.entries)

theorem updateStatement_aligned :
    (updateStatement orderId status version kwargs.entries).Aligned
      (built orderId version (updatesOf status version kwargs.entries)) := by
  refine ⟨_, read_sql, ?_, ?_⟩
  · have hlength : (updateStatement orderId status version kwargs.entries).vals.length =
        (bound (updatesOf status version kwargs.entries)).length + 2 := by
      rw [vals_updateStatement]
      simp only [List.length_append, List.length_singleton]
      omega
    rw [hlength]
    exact params_numberedStmt _
  · rw [vals_updateStatement]
    exact fill_numberedStmt _

theorem meaning_updateStatement :
    (updateStatement orderId status version kwargs.entries).meaning =
      some (built orderId version (updatesOf status version kwargs.entries)) := by
  have haligned : (updateStatement orderId status version kwargs.entries).Aligned
      (built orderId version (updatesOf status version kwargs.entries)) := updateStatement_aligned
  obtain ⟨text, hread, -, hfill⟩ := haligned
  rw [Statement.meaning, hread]
  exact hfill

end

-- ============================================================================
-- Values that are set as given
-- ============================================================================

theorem isNow_iff {v : Val F} : isNow v = true ↔ v = .str "NOW()" := by
  cases v <;> simp [isNow]

theorem rhsOf_eq_param_iff {v : Val F} : rhsOf v = .param v ↔ v ≠ .str "NOW()" := by
  rw [rhsOf, ← not_iff_not, not_not, ← isNow_iff]
  split
  next hnow => exact iff_of_true nofun hnow
  next hvalue => exact iff_of_false (not_not.mpr rfl) hvalue

theorem built_eq_intended_iff {orderId status : String} {version : ℤ} {kwargs : Kwargs F} :
    built orderId version (updatesOf status version kwargs.entries) =
        intended orderId status version kwargs ↔
      status ≠ "NOW()" ∧ ∀ kw ∈ kwargs.entries, kw.2 ≠ .str "NOW()" := by
  have hnow : rhsOf (.str "NOW()" : Val F) = .now := rfl
  have hversion : rhsOf (.int (version + 1) : Val F) = .param (.int (version + 1)) := rfl
  have hstatus : (.str status : Val F) ≠ .str "NOW()" ↔ status ≠ "NOW()" :=
    not_congr (iff_of_eq (Val.str.injEq ..))
  have hkwargs : (kwargs.entries.map fun kv => (kv.1, rhsOf kv.2)) =
      (kwargs.entries.map fun kw => (kw.1, Rhs.param kw.2)) ↔
        ∀ kw ∈ kwargs.entries, kw.2 ≠ .str "NOW()" := by
    rw [List.map_inj_left]
    refine forall₂_congr fun kw _ => ?_
    rw [Prod.mk.injEq, rhsOf_eq_param_iff, and_iff_right rfl]
  rw [updatesOf_eq, built, intended]
  simp only [List.map_cons, List.cons_append, List.nil_append, UpdateStmt.mk.injEq,
    List.cons.injEq, Prod.mk.injEq, hnow, hversion, rhsOf_eq_param_iff, hstatus, hkwargs,
    true_and, and_true]

-- ============================================================================
-- The operations of update_order_status
-- ============================================================================

def SqlExpr.ofRhs : Rhs (Val F) → SqlExpr F
  | .param v => .param v
  | .now => .now

/-- The UPDATE of an order, as an operation. -/
def PgOp.ofStmt (u : UpdateStmt (Val F)) : Option (PgOp F) :=
  match u.conditions with
  | [{ column := "id", param := id, cast := some "uuid" },
      { column := "version", param := .int version, cast := none }] =>
      if u.table = "orders" then
        some (.updateOrder id (u.sets.map fun set => (set.1, .ofRhs set.2)) version)
      else none
  | _ => none

theorem ofRhs_rhsOf (v : Val F) : SqlExpr.ofRhs (rhsOf v) = setPart v := by
  cases v with
  | str s =>
      show SqlExpr.ofRhs (if decide (s = "NOW()") then _ else _) = if s = "NOW()" then _ else _
      by_cases hnow : s = "NOW()"
      · rw [if_pos hnow, if_pos (decide_eq_true hnow)]
        rfl
      · rw [if_neg hnow, if_neg (by simpa using hnow)]
        rfl
  | _ => rfl

theorem ofStmt_built (orderId : String) (version : ℤ) (updates : List (String × Val F)) :
    PgOp.ofStmt (built orderId version updates) =
      some (.updateOrder (.str orderId) (updates.map fun kv => (kv.1, setPart kv.2)) version) := by
  show some (PgOp.updateOrder (.str orderId)
    ((updates.map fun kv => (kv.1, rhsOf kv.2)).map fun set => (set.1, SqlExpr.ofRhs set.2))
      version) = _
  rw [List.map_map]
  simp only [Function.comp_def, ofRhs_rhsOf]

/-- The operation sends a statement that is built so. -/
def PgOp.Sends (orderId status : String) (kwargs : List (String × Val F)) : PgOp F → Prop
  | .updateOrder id sets version =>
      (updateStatement orderId status version kwargs).meaning.bind PgOp.ofStmt =
        some (.updateOrder id sets version)
  | _ => True

/-- Every UPDATE of a call is what its text and its arguments say. -/
theorem updateOrderStatus_sends [Prims F] (orderId status : String) (kwargs : Kwargs F) :
    (updateOrderStatus orderId status kwargs.entries).Always
      (.only (PgOp.Sends orderId status kwargs.entries)) := by
  refine executeRetry_always (fun _ e he => ?_) ?_ 3
  · cases e with
    | updateOrder id sets version => cases he
    | _ => trivial
  · refine (Prog.always_op fun _ => trivial).bind fun row => ?_
    cases row with
    | none => exact Prog.always_ret _
    | some stored =>
        refine (Prog.always_ofExcept _).bind fun version => ?_
        refine (Prog.always_op fun _ => ?_).bind fun result => Prog.always_ret _
        show (updateStatement orderId status version kwargs.entries).meaning.bind PgOp.ofStmt = _
        rw [meaning_updateStatement]
        exact ofStmt_built ..

-- ============================================================================
-- Alignment and values
-- ============================================================================

/-- The placeholders and the arguments always fit.  The statement sets every column to what
    was given for it if and only if neither the status nor a value is the text `NOW()`. -/
theorem updateStatement_intended_iff (orderId status : String) (version : ℤ) (kwargs : Kwargs F) :
    let s := updateStatement orderId status version kwargs.entries
    s.Aligned (built orderId version (updatesOf status version kwargs.entries)) ∧
      (s.meaning = some (intended orderId status version kwargs) ↔
        status ≠ "NOW()" ∧ ∀ kw ∈ kwargs.entries, kw.2 ≠ .str "NOW()") := by
  intro s
  refine ⟨updateStatement_aligned, ?_⟩
  rw [meaning_updateStatement, Option.some_inj]
  exact built_eq_intended_iff

/-- A reason that reads like the function. -/
def nowReason : Kwargs ℚ where
  entries := [("rejection_reason", .str "NOW()")]
  nodup := by decide
  columns := by decide

theorem not_updateStatement_intended :
    (updateStatement "o1" "REJECTED" 1 nowReason.entries).meaning ≠
      some (intended "o1" "REJECTED" 1 nowReason) := by
  rw [meaning_updateStatement]
  intro h
  exact (built_eq_intended_iff.mp (Option.some.inj h)).2 _ List.mem_cons_self rfl

end Mtrader.Storage
