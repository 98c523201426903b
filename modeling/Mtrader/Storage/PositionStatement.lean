/-
  Mtrader.Storage.PositionStatement

  The text and the arguments of the UPDATE in `update_position`.

  Its loop numbers the placeholders as the one of `update_order_status` does, but knows no
  text `NOW()`: every value has a placeholder, and `updated_at` is written behind them all.
-/

import Mtrader.Storage.UpdateStatement

namespace Mtrader.Storage

open Py Sql

variable {F : Type}

-- ============================================================================
-- The statement that is built
-- ============================================================================

/-- Keyword arguments. -/
structure Named (F : Type) where
  entries : List (String × Val F)
  nodup : (entries.map Prod.fst).Nodup
  names : ∀ kw ∈ entries, IsName kw.1

/-- The body of the loop. -/
def Building.put (b : Building F) (kv : String × Val F) : Building F where
  setParts := b.setParts ++ [kv.1 ++ "=$" ++ toString b.idx]
  vals := b.vals ++ [kv.2]
  idx := b.idx + 1

/-- `sql` and `vals` of `update_position`. -/
def positionStatement (positionId : String) (kwargs : List (String × Val F)) : Statement F :=
  let b := kwargs.foldl Building.put { setParts := [], vals := [.str positionId], idx := 2 }
  { sql := "UPDATE positions SET " ++ ", ".intercalate b.setParts ++
      ", updated_at=NOW() WHERE id=$1::uuid"
    vals := b.vals }

/-- Every column is set to the value that was given for it. -/
def positionUpdate (positionId : String) (kwargs : List (String × Val F)) :
    UpdateStmt (Val F) where
  table := "positions"
  sets := kwargs.map (fun kw => (kw.1, .param kw.2)) ++ [("updated_at", .now)]
  conditions := [{ column := "id", param := .str positionId, cast := some "uuid" }]

-- ============================================================================
-- The loop
-- ============================================================================

/-- The sets with their placeholders, from `idx` on. -/
def placed (idx : ℕ) : List (String × Val F) → List (String × Rhs ℕ)
  | [] => []
  | kv :: kwargs => (kv.1, .param idx) :: placed (idx + 1) kwargs

/-- The text and the arguments after the loop. -/
theorem foldl_put (kwargs : List (String × Val F)) (b : Building F) :
    kwargs.foldl Building.put b =
      { setParts := b.setParts ++ (placed b.idx kwargs).map setText
        vals := b.vals ++ kwargs.map Prod.snd
        idx := b.idx + kwargs.length } := by
  induction kwargs generalizing b with
  | nil => simp [placed]
  | cons kv kwargs ih =>
      have hsign : "=$" = "=" ++ "$" := rfl
      have htext : setText (kv.1, Rhs.param b.idx) = kv.1 ++ "=$" ++ toString b.idx := by
        rw [hsign]
        simp only [setText, Rhs.text, placeholder, String.append_assoc]
      rw [List.foldl_cons, ih, Building.put, placed]
      simp only [List.map_cons, htext, List.append_assoc, List.singleton_append, List.length_cons]
      congr 1
      omega

/-- Placeholder `idx` stands for the first value. -/
theorem fill_placed (before : List (Val F)) (kwargs : List (String × Val F)) :
    (placed (before.length + 1) kwargs).mapM (fillSet (before ++ kwargs.map Prod.snd)) =
      some (kwargs.map fun kw => (kw.1, .param kw.2)) := by
  induction kwargs generalizing before with
  | nil => rfl
  | cons kv kwargs ih =>
      have hrest := ih (before ++ [kv.2])
      rw [List.length_append, List.append_assoc before [kv.2]] at hrest
      have harg : argument (before ++ kv.2 :: kwargs.map Prod.snd) (before.length + 1) =
          some kv.2 := by
        rw [argument, List.getElem?_append_right (le_refl _), Nat.sub_self]
        rfl
      simp only [List.singleton_append, List.length_singleton] at hrest
      rw [placed, List.map_cons, List.mapM_cons, fillSet, Rhs.fill, harg, hrest, List.map_cons]
      rfl

theorem isName_placed (idx : ℕ) {kwargs : List (String × Val F)}
    (h : ∀ kw ∈ kwargs, IsName kw.1) : ∀ set ∈ placed idx kwargs, IsName set.1 := by
  induction kwargs generalizing idx with
  | nil => simp [placed]
  | cons kv kwargs ih =>
      have hrest : ∀ kw ∈ kwargs, IsName kw.1 := fun kw hkw => h kw (List.mem_cons_of_mem _ hkw)
      exact List.forall_mem_cons.mpr ⟨h kv List.mem_cons_self, ih (idx + 1) hrest⟩

-- ============================================================================
-- The text and its arguments
-- ============================================================================

/-- The statement with its placeholders. -/
def placedStmt (kwargs : List (String × Val F)) : UpdateStmt ℕ where
  table := "positions"
  sets := placed 2 kwargs ++ [("updated_at", .now)]
  conditions := [{ column := "id", param := 1, cast := some "uuid" }]

theorem positionStatement_eq (positionId : String) (kwargs : List (String × Val F)) :
    positionStatement positionId kwargs =
      { sql := "UPDATE positions SET " ++ ", ".intercalate ((placed 2 kwargs).map setText) ++
          ", updated_at=NOW() WHERE id=$1::uuid"
        vals := [.str positionId] ++ kwargs.map Prod.snd } := by
  unfold positionStatement
  rw [foldl_put]
  rfl

theorem text_placedStmt {kwargs : List (String × Val F)} (hne : kwargs ≠ []) :
    (placedStmt kwargs).text = "UPDATE positions SET " ++
      ", ".intercalate ((placed 2 kwargs).map setText) ++
      ", updated_at=NOW() WHERE id=$1::uuid" := by
  have hplaced : (placed 2 kwargs).map setText ≠ [] := by
    cases kwargs with
    | nil => exact absurd rfl hne
    | cons kv kwargs => exact List.cons_ne_nil _ _
  have hid : Condition.text { column := "id", param := 1, cast := some "uuid" } =
      "id=$1::uuid" := by decide
  have hupdated : setText ("updated_at", Rhs.now) = "updated_at=NOW()" := by decide
  have hupdate : "UPDATE positions SET " = "UPDATE " ++ "positions" ++ " SET " := rfl
  have hlast : ", updated_at=NOW() WHERE id=$1::uuid" =
      ", " ++ ("updated_at=NOW()" ++ (" WHERE " ++ "id=$1::uuid")) := rfl
  rw [UpdateStmt.text, placedStmt, List.map_append, List.map_cons, List.map_nil, List.map_cons,
    List.map_nil, hid, hupdated, String.intercalate_append_of_ne_nil hplaced (by simp),
    String.intercalate_singleton, String.intercalate_singleton, hupdate, hlast]
  simp only [String.append_assoc]

theorem placedStmt_wellFormed (kwargs : Named F) : (placedStmt kwargs.entries).WellFormed where
  table := by
    show IsName "positions"
    decide
  sets_ne := by simp [placedStmt]
  sets := by
    refine List.forall_mem_append.mpr ⟨isName_placed 2 kwargs.names, ?_⟩
    refine List.forall_mem_singleton.mpr ?_
    show IsName "updated_at"
    decide
  conditions_ne := List.cons_ne_nil _ _
  conditions := by
    have hid : IsName "id" ∧ IsName "uuid" := by decide
    refine List.forall_mem_singleton.mpr ⟨hid.1, ?_⟩
    rintro type ⟨⟩
    exact hid.2

/-- The statement says what the keyword arguments say, whatever the values. -/
theorem meaning_positionStatement (positionId : String) (kwargs : Named F)
    (hne : kwargs.entries ≠ []) : (positionStatement positionId kwargs.entries).meaning =
      some (positionUpdate positionId kwargs.entries) := by
  have hsets : (placedStmt kwargs.entries).sets.mapM
      (fillSet ([.str positionId] ++ kwargs.entries.map Prod.snd)) =
        some (positionUpdate positionId kwargs.entries).sets := by
    have hplaced := fill_placed [.str positionId] kwargs.entries
    rw [placedStmt, List.mapM_append, show (placed 2 kwargs.entries).mapM _ = _ from hplaced]
    rfl
  have hconditions : (placedStmt kwargs.entries).conditions.mapM
      (Condition.fill ([.str positionId] ++ kwargs.entries.map Prod.snd)) =
        some (positionUpdate positionId kwargs.entries).conditions := rfl
  rw [Statement.meaning, positionStatement_eq]
  show (UpdateStmt.read (_ ++ _ ++ _)).bind _ = _
  rw [← text_placedStmt hne, UpdateStmt.read_text (placedStmt_wellFormed kwargs)]
  show (placedStmt kwargs.entries).fill _ = _
  rw [UpdateStmt.fill, hsets, hconditions]
  rfl

end Mtrader.Storage
