/-
  Mtrader.Storage.Positions

  `update_position` and `close_position` over the table `positions`, under every interleaving.

  Each call sends one UPDATE, outside of a transaction and without a second attempt.  A
  statement may fail and change nothing; the connection may also be lost when it has taken
  effect, which raises all the same.  asyncpg refuses a value that is not of its column's type
  before it sends it.  A call may give a new `id` to the row, which later calls have to name.
-/

import Mtrader.Storage.PositionStatement

namespace Mtrader.Storage

open Coroutine Py Sql

variable {F : Type}

-- ============================================================================
-- update_position and close_position
-- ============================================================================

/-- What the two methods call. -/
inductive PositionOp (F : Type)
  /-- Entering and leaving `async with self.pool.acquire()`. -/
  | acquire
  | release
  /-- `conn.execute(sql, *vals)`. -/
  | execute (s : Statement F)

/-- An UPDATE is answered with its command tag. -/
@[reducible] def PositionOp.Ans {F : Type} : PositionOp F → Type
  | .execute _ => String
  | _ => Unit

abbrev PositionM (F : Type) : Type → Type := Prog (PositionOp.Ans (F := F)) PgExc

abbrev position (e : PositionOp F) : PositionM F e.Ans := Prog.op e

/-- `PostgresRepository.update_position`. -/
def updatePosition (positionId : String) (kwargs : List (String × Val F)) : PositionM F Bool :=
  if kwargs.isEmpty then return true
  else do
    position .acquire
    Prog.andFinally (do
      let result : String ← position (.execute (positionStatement positionId kwargs))
      return result.endsWith "1") (position .release)

/-- The keyword arguments of `close_position`. -/
def closeArguments (exitPrice : F) : Named F where
  entries := [("current_price", .float exitPrice), ("closed_at", .str "now")]
  nodup := by
    show ["current_price", "closed_at"].Nodup
    decide
  names := by
    have hnames : IsName "current_price" ∧ IsName "closed_at" := by decide
    exact List.forall_mem_cons.mpr ⟨hnames.1, List.forall_mem_singleton.mpr hnames.2⟩

/-- `PostgresRepository.close_position`. -/
def closePosition (positionId : String) (exitPrice : F) : PositionM F Bool :=
  updatePosition positionId (closeArguments exitPrice).entries

inductive PositionCall (F : Type)
  | update (positionId : String) (kwargs : Named F)
  | close (positionId : String) (exitPrice : F)

namespace PositionCall

def positionId : PositionCall F → String
  | .update positionId _ => positionId
  | .close positionId _ => positionId

/-- What it gives for which columns. -/
def given : PositionCall F → Named F
  | .update _ kwargs => kwargs
  | .close _ exitPrice => closeArguments exitPrice

def prog : PositionCall F → PositionM F Bool
  | .update positionId kwargs => updatePosition positionId kwargs.entries
  | .close positionId exitPrice => closePosition positionId exitPrice

theorem prog_eq (call : PositionCall F) :
    call.prog = updatePosition call.positionId call.given.entries := by
  cases call <;> rfl

end PositionCall

-- ============================================================================
-- The positions table
-- ============================================================================

/-- What the table says about ids and values. -/
structure PositionsTable (F : Type) where
  /-- `v::uuid`, where the value is one. -/
  uuid : Val F → Option String
  /-- The value can be sent for the column. -/
  accepts : String → Val F → Bool

abbrev Positions (F : Type) : Type := List (Row F)

/-- The position of `UPDATE positions SET … WHERE id=…::uuid`. -/
def target (u : UpdateStmt (Val F)) : Option (Val F) :=
  match u.conditions with
  | [{ column := "id", param := id, cast := some "uuid" }] =>
      if u.table = "positions" then some id else none
  | _ => none

/-- The row's `id` is this one. -/
def PositionsTable.named (T : PositionsTable F) (id : String) (row : Row F) : Bool :=
  T.uuid (row "id") = some id

/-- The rows after the SET of those with the id. -/
def Positions.write (T : PositionsTable F) (w : Positions F) (id : String) (now : Time)
    (sets : List (String × Rhs (Val F))) : Positions F :=
  w.map fun row =>
    if T.named id row then row.assign now (sets.map fun set => (set.1, .ofRhs set.2)) else row

def Positions.tag (T : PositionsTable F) (w : Positions F) (id : String) : String :=
  "UPDATE " ++ toString (w.countP (T.named id))

/-- `id` is the primary key. -/
def Keyed (T : PositionsTable F) (w : Positions F) : Prop :=
  w.Pairwise fun row other => T.uuid (row "id") ≠ T.uuid (other "id")

/-- The statement updates the row with this id if it is there: no column is set twice, and the
    values are of the columns' types. -/
structure Executable (T : PositionsTable F) (s : Statement F) (id : String)
    (u : UpdateStmt (Val F)) : Prop where
  meaning : s.meaning = some u
  target : (target u).bind T.uuid = some id
  nodup : (u.sets.map Prod.fst).Nodup
  accepted : ∀ column v, (column, .param v) ∈ u.sets → T.accepts column v

/-- What the operations may be answered.  A statement after which two rows would have one id
    fails. -/
inductive PositionStep (T : PositionsTable F) :
    Env (Positions F) (PositionOp.Ans (F := F)) PgExc
  | acquired {w : Positions F} : PositionStep T w .acquire (.ok ()) w
  | released {w : Positions F} : PositionStep T w .release (.ok ()) w
  | failed {w : Positions F} {e : PositionOp F} {x : PgExc} : PositionStep T w e (.error x) w
  | executed {w : Positions F} {s : Statement F} {id : String} {u : UpdateStmt (Val F)}
      {now : Time} (hs : Executable T s id u) (hkeyed : Keyed T (w.write T id now u.sets)) :
      PositionStep T w (.execute s) (.ok (w.tag T id)) (w.write T id now u.sets)
  | lost {w : Positions F} {s : Statement F} {id : String} {u : UpdateStmt (Val F)} {now : Time}
      {x : PgExc} (hs : Executable T s id u) (hkeyed : Keyed T (w.write T id now u.sets)) :
      PositionStep T w (.execute s) (.error x) (w.write T id now u.sets)

/-- The call is for this row. -/
def PositionCall.isFor (T : PositionsTable F) (call : PositionCall F) (row : Row F) : Bool :=
  (T.uuid (.str call.positionId)).any fun id => T.named id row

/-- The row after a call, `updated_at` apart. -/
def PositionCall.effect (T : PositionsTable F) (call : PositionCall F) (row : Row F) : Row F :=
  if call.isFor T row then fun column => (call.given.entries.lookup column).getD (row column)
  else row

/-- The rows are the same, `updated_at` apart. -/
def SameData (row row' : Row F) : Prop :=
  ∀ column, column ≠ "updated_at" → row column = row' column

theorem SameData.named {T : PositionsTable F} {row row' : Row F} (h : SameData row row')
    (id : String) : T.named id row = T.named id row' := by
  rw [PositionsTable.named, PositionsTable.named, h "id" (by decide)]

theorem isFor_eq {T : PositionsTable F} {call : PositionCall F} {id : String}
    (huuid : T.uuid (.str call.positionId) = some id) (row : Row F) :
    call.isFor T row = T.named id row := by
  rw [PositionCall.isFor, huuid]
  rfl

theorem lookup_positionUpdate {column : String} (hcolumn : column ≠ "updated_at")
    (positionId : String) (kwargs : List (String × Val F)) :
    ((positionUpdate positionId kwargs).sets.map fun set => (set.1, SqlExpr.ofRhs set.2)).lookup
      column = (kwargs.lookup column).map .param := by
  induction kwargs with
  | nil =>
      show List.lookup column [("updated_at", SqlExpr.now)] = none
      rw [List.lookup_cons, show (column == "updated_at") = false from beq_false_of_ne hcolumn]
      rfl
  | cons kw kwargs ih =>
      show List.lookup column ((kw.1, SqlExpr.param kw.2) :: _) = _
      rw [List.lookup_cons, List.lookup_cons]
      cases column == kw.1 with
      | true => rfl
      | false => exact ih

theorem executable_positionStatement {T : PositionsTable F} {call : PositionCall F} {id : String}
    {u : UpdateStmt (Val F)} (hne : call.given.entries ≠ [])
    (hs : Executable T (positionStatement call.positionId call.given.entries) id u) :
    u = positionUpdate call.positionId call.given.entries ∧
      T.uuid (.str call.positionId) = some id ∧
        ∀ kw ∈ call.given.entries, T.accepts kw.1 kw.2 := by
  have hmeaning := meaning_positionStatement call.positionId call.given hne
  obtain rfl : _ = u := Option.some.inj (hmeaning.symm.trans hs.meaning)
  refine ⟨rfl, hs.target, fun kw hkw => hs.accepted kw.1 kw.2 ?_⟩
  exact List.mem_append_left _ (List.mem_map.mpr ⟨kw, hkw, rfl⟩)

/-- The statement of a call has its effect on every row. -/
theorem write_effect {T : PositionsTable F} {call : PositionCall F} {id : String}
    (huuid : T.uuid (.str call.positionId) = some id) {w rows : Positions F}
    (hrows : List.Forall₂ SameData w rows) (now : Time) :
    List.Forall₂ SameData
      (w.write T id now (positionUpdate call.positionId call.given.entries).sets)
      (rows.map (call.effect T)) := by
  refine List.forall₂_map_left_iff.mpr (List.forall₂_map_right_iff.mpr (hrows.imp ?_))
  intro row row' hsame
  rw [PositionCall.effect, isFor_eq huuid, ← hsame.named]
  cases T.named id row with
  | false => exact hsame
  | true =>
      intro column hcolumn
      show ((List.lookup column _).map (SqlExpr.value now)).getD (row column) = _
      rw [lookup_positionUpdate hcolumn]
      cases hlookup : call.given.entries.lookup column with
      | none => simpa [hlookup] using hsame column hcolumn
      | some v => simp [hlookup, SqlExpr.value]

-- ============================================================================
-- One statement for each call
-- ============================================================================

/-- A call sends its statement once; what it keeps in mind is how it has been answered. -/
def sending (call : PositionCall F) :
    Discipline (PositionOp.Ans (F := F)) PgExc (Option (Except PgExc String)) where
  may g e := match e with
    | .execute s => g = none ∧ call.given.entries ≠ [] ∧
        s = positionStatement call.positionId call.given.entries
    | _ => True
  next g e a := match e, a with
    | .execute _, a => some a
    | _, _ => g

/-- A call that returns has been told by the tag what it returns, or had nothing to do. -/
def Told (call : PositionCall F) (out : Except PgExc Bool)
    (g : Option (Except PgExc String)) : Prop :=
  ∀ b, out = .ok b → call.given.entries ≠ [] → ∃ tag, g = some (.ok tag) ∧ b = tag.endsWith "1"

theorem prog_obeys (call : PositionCall F) : call.prog.Obeys (sending call) (Told call) none := by
  have herror : ∀ {x : PgExc} {g : Option (Except PgExc String)}, Told call (.error x) g := by
    intro x g b hb
    cases hb
  rw [call.prog_eq, updatePosition]
  split
  next hempty =>
    exact fun b _ hne => absurd (List.isEmpty_iff.mp hempty) hne
  next hempty =>
    have hne : call.given.entries ≠ [] := fun hnil => hempty (List.isEmpty_iff.mpr hnil)
    refine Prog.obeys_op_bind.mpr ⟨trivial, fun _ => ?_, fun x => herror⟩
    refine Prog.obeys_andFinally (Prog.obeys_op_bind.mpr ⟨⟨rfl, hne, rfl⟩, fun result => ?_,
      fun x => ?_⟩)
    · refine Prog.obeys_op.mpr ⟨trivial, fun released => ?_⟩
      cases released with
      | ok _ =>
          intro b hb _
          cases hb
          exact ⟨result, rfl, rfl⟩
      | error x => exact herror
    · refine Prog.obeys_op.mpr ⟨trivial, fun released => ?_⟩
      cases released with
      | ok _ => exact herror
      | error x => exact herror

-- ============================================================================
-- One position
-- ============================================================================

/-- The columns that the migrations give the table. -/
def positionColumns : List String :=
  ["opened_at", "id", "account_id", "symbol", "side", "quantity", "entry_price", "price_current",
    "profit", "closed_at", "updated_at", "version", "unrealized_pnl", "realized_pnl"]

section

variable {κ : Type}

abbrev PositionHistory (κ F : Type) : Type :=
  History κ (Positions F) (PositionOp.Ans (F := F)) PgExc

abbrev PositionConfig (κ F : Type) : Type :=
  Config κ (Positions F) (PositionOp.Ans (F := F)) PgExc Bool

def executes : PositionOp F → Bool
  | .execute _ => true
  | _ => false

/-- The calls that have sent their statements, in this order. -/
def sent : PositionHistory κ F → List κ
  | [] => []
  | (i, ev) :: h => if executes ev.op then sent h ++ [i] else sent h

/-- Those of them that have been answered with a tag. -/
def acknowledged : PositionHistory κ F → List κ
  | [] => []
  | (i, ev) :: h =>
      if executes ev.op && ev.ans.isOk then acknowledged h ++ [i] else acknowledged h

/-- The row when these calls have taken effect one after the other. -/
def rowAfter (T : PositionsTable F) (calls : κ → PositionCall F) (applied : List κ)
    (row : Row F) : Row F :=
  applied.foldl (fun row i => (calls i).effect T row) row

variable {T : PositionsTable F} {calls : κ → PositionCall F} {w₀ : Positions F}
variable {h h' : PositionHistory κ F}

/-- These are the calls that have taken effect, in this order. -/
structure Applied (T : PositionsTable F) (calls : κ → PositionCall F) (w₀ : Positions F)
    (h : PositionHistory κ F) (w : Positions F) (applied : List κ) : Prop where
  kept : (acknowledged h).Sublist applied
  made : applied.Sublist (sent h)
  accepted : ∀ i ∈ applied, ∀ kw ∈ (calls i).given.entries, T.accepts kw.1 kw.2
  rows : List.Forall₂ SameData w (w₀.map (rowAfter T calls applied))

theorem rowAfter_append (applied : List κ) (i : κ) :
    rowAfter T calls (applied ++ [i]) = (calls i).effect T ∘ rowAfter T calls applied := by
  funext row
  rw [rowAfter, List.foldl_append]
  rfl

/-- An operation that changes nothing. -/
theorem Applied.still {i : κ} {w : Positions F} {e : PositionOp F}
    {a : Except PgExc e.Ans} {applied : List κ} (hw : Applied T calls w₀ h w applied)
    (hnone : (executes e && a.isOk) = false) :
    Applied T calls w₀ ((i, ⟨w, e, a⟩) :: h) w applied := by
  refine ⟨?_, ?_, hw.accepted, hw.rows⟩
  · rw [acknowledged, if_neg (by simp [hnone])]
    exact hw.kept
  · rw [sent]
    split
    next => exact hw.made.trans (List.sublist_append_left _ _)
    next => exact hw.made

variable [DecidableEq κ]

/-- The runs of some calls, from a table `w₀`. -/
abbrev PositionRun (T : PositionsTable F) (calls : κ → PositionCall F) (w₀ : Positions F) :
    PositionHistory κ F → PositionConfig κ F → Prop :=
  Run (fun _ => true) (fun _ => PositionStep T) { world := w₀, pool := fun i => (calls i).prog }

/-- How the statement of call `i` has been answered. -/
def answer (calls : κ → PositionCall F) (h : PositionHistory κ F) (i : κ) :
    Option (Except PgExc String) := (sending (calls i)).ghost none i h

variable {c c' : PositionConfig κ F}

/-- The statement of call `i` takes effect, however it is answered. -/
theorem Applied.take {i : κ} {w : Positions F} {id : String} {now : Time}
    {u : UpdateStmt (Val F)} {a : Except PgExc String} {s : Statement F} {applied : List κ}
    (hw : Applied T calls w₀ h w applied) (hs : Executable T s id u)
    (hmay : (sending (calls i)).may (answer calls h i) (.execute s)) :
    Applied T calls w₀ ((i, ⟨w, .execute s, a⟩) :: h) (w.write T id now u.sets)
      (applied ++ [i]) := by
  obtain ⟨-, hne, rfl⟩ := hmay
  obtain ⟨rfl, huuid, haccepted⟩ := executable_positionStatement hne hs
  refine ⟨?_, ?_, ?_, ?_⟩
  · rw [acknowledged]
    split
    next => exact hw.kept.append (List.Sublist.refl _)
    next => exact hw.kept.trans (List.sublist_append_left _ _)
  · exact hw.made.append (List.Sublist.refl _)
  · exact List.forall_mem_append.mpr ⟨hw.accepted, List.forall_mem_singleton.mpr haccepted⟩
  · rw [rowAfter_append, ← List.map_map]
    exact write_effect huuid hw.rows now

theorem call_may {i : κ} {ev : Event (Positions F) (PositionOp.Ans (F := F)) PgExc}
    (hrun : PositionRun T calls w₀ h c) (hsuffix : (i, ev) :: h' <:+ h) :
    (sending (calls i)).may (answer calls h' i) ev.op :=
  hrun.may (prog_obeys (calls i)) hsuffix

end

end Mtrader.Storage
