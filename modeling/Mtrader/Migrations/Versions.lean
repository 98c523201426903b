/-
  Mtrader.Migrations.Versions

  The revisions 003 and 004 of `migrations/versions`, on the columns, constraints and
  indexes of the schema; the TimescaleDB settings that they execute are none.

  Each statement of an upgrade is skipped where its object is there, but the downgrade
  drops what it finds: what revision 002 had already created is lost.
-/

import Mtrader.Sql.Guarded

namespace Mtrader.Migrations

open Sql

-- ============================================================================
-- The inspector
-- ============================================================================

variable (s : Schema)

/-- `_column_exists(table, column)`. -/
def columnExists (table column : String) : Bool := s.any (SchemaObject.isColumn table column)

/-- `_constraint_exists(table, constraint)`. -/
def constraintExists (table constraint : String) : Bool :=
  s.any (SchemaObject.isKeyConstraint table constraint)

/-- `_index_exists(table, index)`; the inspector lists the index of a unique constraint too. -/
def indexExists (table index : String) : Bool := s.any (SchemaObject.isIndex table index)

/-- `_table_exists(table)`. -/
def tableExists (table : String) : Bool := s.any (SchemaObject.isTable table)

section

variable (t n rt c : String) (columns refColumns : List String) (d : Column) (unique : Bool)

/-- What the guarded statements are, in the inspector's words. -/
theorem column_present :
    (Guarded.column t d).present s = columnExists s t d.name := rfl

theorem foreignKey_present :
    (Guarded.foreignKey n t rt columns refColumns).present s = constraintExists s t n := rfl

theorem unique_present : (Guarded.unique n t columns).present s = constraintExists s t n := rfl

theorem index_present :
    (Guarded.index n t columns unique).present s = indexExists s t n := rfl

theorem column_up : (Guarded.column t d).up s =
    if columnExists s t d.name then some s else s.addColumn t d := rfl

theorem foreignKey_up : (Guarded.foreignKey n t rt columns refColumns).up s =
    if constraintExists s t n then some s
    else s.createForeignKey n t rt columns refColumns := rfl

theorem unique_up : (Guarded.unique n t columns).up s =
    if constraintExists s t n then some s else s.createUniqueConstraint n t columns := rfl

theorem index_up : (Guarded.index n t columns unique).up s =
    if indexExists s t n then some s else s.createIndex n t columns unique := rfl

theorem column_down : (Guarded.column t d).down s =
    if columnExists s t d.name then s.dropColumn t d.name else some s := rfl

theorem foreignKey_down : (Guarded.foreignKey n t rt columns refColumns).down s =
    if constraintExists s t n then s.dropConstraint n t else some s := rfl

theorem unique_down : (Guarded.unique n t columns).down s =
    if constraintExists s t n then s.dropConstraint n t else some s := rfl

theorem index_down : (Guarded.index n t columns unique).down s =
    if indexExists s t n then s.dropIndex n t else some s := rfl

end

-- ============================================================================
-- 003_align_trading_schema
-- ============================================================================

namespace AlignTradingSchema

def clientOrderId : Column :=
  { name := "client_order_id", type := "TEXT", nullable := false, serverDefault := some "" }

def version : Column :=
  { name := "version", type := "INTEGER", nullable := false, serverDefault := some "1" }

def idempotencyKey : Column := { name := "idempotency_key", type := "TEXT" }

def parentOrderId : Column := { name := "parent_order_id", type := "UUID" }

def unrealizedPnl : Column := { name := "unrealized_pnl", type := "NUMERIC(10, 2)" }

def realizedPnl : Column := { name := "realized_pnl", type := "NUMERIC(10, 2)" }

/-- `upgrade()`; `if not …_exists(…)` is the other branch. -/
def upgrade : Option Schema := do
  let s ← (if columnExists s "orders" "client_order_id" then some s
    else s.addColumn "orders" clientOrderId)
  let s ← (if columnExists s "orders" "version" then some s
    else s.addColumn "orders" version)
  let s ← (if columnExists s "orders" "idempotency_key" then some s
    else s.addColumn "orders" idempotencyKey)
  let s ← (if columnExists s "orders" "parent_order_id" then some s
    else s.addColumn "orders" parentOrderId)
  let s ← (if constraintExists s "orders" "fk_orders_parent_order" then some s
    else s.createForeignKey "fk_orders_parent_order" "orders" "orders" ["parent_order_id"] ["id"])
  let s ← (if columnExists s "positions" "version" then some s
    else s.addColumn "positions" version)
  let s ← (if columnExists s "positions" "unrealized_pnl" then some s
    else s.addColumn "positions" unrealizedPnl)
  let s ← (if columnExists s "positions" "realized_pnl" then some s
    else s.addColumn "positions" realizedPnl)
  let s ← (if constraintExists s "orders" "uq_orders_idempotency_key" then some s
    else s.createUniqueConstraint "uq_orders_idempotency_key" "orders" ["idempotency_key"])
  let s ← (if indexExists s "orders" "orders_client_order_id_idx" then some s
    else s.createIndex "orders_client_order_id_idx" "orders" ["client_order_id"] false)
  let s ← (if indexExists s "orders" "orders_idempotency_key_idx" then some s
    else s.createIndex "orders_idempotency_key_idx" "orders" ["idempotency_key"] true)
  let s ← (if indexExists s "positions" "positions_version_idx" then some s
    else s.createIndex "positions_version_idx" "positions" ["version"] false)
  return s

/-- `downgrade()`. -/
def downgrade : Option Schema := do
  let s ← (if indexExists s "positions" "positions_version_idx" then
    s.dropIndex "positions_version_idx" "positions" else some s)
  let s ← (if indexExists s "orders" "orders_idempotency_key_idx" then
    s.dropIndex "orders_idempotency_key_idx" "orders" else some s)
  let s ← (if indexExists s "orders" "orders_client_order_id_idx" then
    s.dropIndex "orders_client_order_id_idx" "orders" else some s)
  let s ← (if constraintExists s "orders" "uq_orders_idempotency_key" then
    s.dropConstraint "uq_orders_idempotency_key" "orders" else some s)
  let s ← (if constraintExists s "orders" "fk_orders_parent_order" then
    s.dropConstraint "fk_orders_parent_order" "orders" else some s)
  let s ← (if columnExists s "positions" "realized_pnl" then
    s.dropColumn "positions" "realized_pnl" else some s)
  let s ← (if columnExists s "positions" "unrealized_pnl" then
    s.dropColumn "positions" "unrealized_pnl" else some s)
  let s ← (if columnExists s "positions" "version" then
    s.dropColumn "positions" "version" else some s)
  let s ← (if columnExists s "orders" "parent_order_id" then
    s.dropColumn "orders" "parent_order_id" else some s)
  let s ← (if columnExists s "orders" "idempotency_key" then
    s.dropColumn "orders" "idempotency_key" else some s)
  let s ← (if columnExists s "orders" "version" then
    s.dropColumn "orders" "version" else some s)
  let s ← (if columnExists s "orders" "client_order_id" then
    s.dropColumn "orders" "client_order_id" else some s)
  return s

/-- What the revision guards on `orders` before its foreign key. -/
def orderColumns : List Guarded :=
  [.column "orders" clientOrderId, .column "orders" version, .column "orders" idempotencyKey,
   .column "orders" parentOrderId]

def parentOrder : Guarded :=
  .foreignKey "fk_orders_parent_order" "orders" "orders" ["parent_order_id"] ["id"]

def positionColumns : List Guarded :=
  [.column "positions" version, .column "positions" unrealizedPnl, .column "positions" realizedPnl]

def keysAndIndexes : List Guarded :=
  [.unique "uq_orders_idempotency_key" "orders" ["idempotency_key"],
   .index "orders_client_order_id_idx" "orders" ["client_order_id"] false,
   .index "orders_idempotency_key_idx" "orders" ["idempotency_key"] true,
   .index "positions_version_idx" "positions" ["version"] false]

/-- What the upgrade creates, in its order. -/
def created : List Guarded :=
  orderColumns ++ (parentOrder :: positionColumns) ++ keysAndIndexes

/-- What the downgrade drops, in its order. -/
def dropped : List Guarded :=
  keysAndIndexes.reverse ++ (parentOrder :: positionColumns.reverse) ++ orderColumns.reverse

variable {s} {s' : Schema}

theorem upgrade_eq (s : Schema) : upgrade s = Guarded.upgrade created s := by
  simp only [upgrade, created, orderColumns, parentOrder, positionColumns, keysAndIndexes,
    clientOrderId, version, idempotencyKey, parentOrderId, unrealizedPnl, realizedPnl,
    List.cons_append, List.nil_append, Guarded.upgrade, column_up, foreignKey_up, unique_up,
    index_up, Option.bind_eq_bind, Option.bind_fun_some]

theorem downgrade_eq (s : Schema) : downgrade s = Guarded.downgrade dropped s := by
  simp only [downgrade, dropped, orderColumns, parentOrder, positionColumns, keysAndIndexes,
    clientOrderId, version, idempotencyKey, parentOrderId, unrealizedPnl, realizedPnl,
    List.reverse_cons, List.reverse_nil, List.cons_append, List.nil_append, Guarded.downgrade,
    column_down, foreignKey_down, unique_down, index_down, Option.bind_eq_bind,
    Option.bind_fun_some]

theorem created_perm : created.Perm dropped := by
  have hreverse : ∀ l : List Guarded, l.Perm l.reverse := fun l => (List.reverse_perm l).symm
  have hmiddle := (hreverse positionColumns).cons parentOrder
  have hrest := (hmiddle.append (hreverse keysAndIndexes)).append (hreverse orderColumns)
  have hfirst : created.Perm
      (parentOrder :: positionColumns ++ keysAndIndexes ++ orderColumns) := by
    rw [created, List.append_assoc]
    exact List.perm_append_comm
  exact (hfirst.trans hrest).trans (List.perm_append_comm.append_right _)

theorem created_apart : created.Pairwise Guarded.Apart := by decide +kernel

theorem dropped_without : dropped.Pairwise Guarded.Without := by decide +kernel

/-- Nothing of what the revision guards is there. -/
def Untouched (s : Schema) : Prop :=
  (∀ c ∈ ["client_order_id", "version", "idempotency_key", "parent_order_id"],
    columnExists s "orders" c = false) ∧
  (∀ c ∈ ["version", "unrealized_pnl", "realized_pnl"], columnExists s "positions" c = false) ∧
  (∀ n ∈ ["fk_orders_parent_order", "uq_orders_idempotency_key"],
    constraintExists s "orders" n = false) ∧
  (∀ n ∈ ["orders_client_order_id_idx", "orders_idempotency_key_idx"],
    indexExists s "orders" n = false) ∧
  indexExists s "positions" "positions_version_idx" = false

theorem untouched_iff : (∀ x ∈ created, x.present s = false) ↔ Untouched s := by
  simp only [created, orderColumns, parentOrder, positionColumns, keysAndIndexes, List.cons_append,
    List.nil_append, List.forall_mem_cons, column_present, foreignKey_present, unique_present,
    index_present, Untouched, clientOrderId, version, idempotencyKey, parentOrderId, unrealizedPnl,
    realizedPnl]
  tauto

/-- The downgrade undoes the upgrade exactly if it finds only what the upgrade created. -/
theorem restores_iff (h : upgrade s = some s') : downgrade s' = some s ↔ Untouched s := by
  rw [upgrade_eq] at h
  rw [downgrade_eq, Guarded.restores_iff created_perm created_apart dropped_without h]
  exact untouched_iff

end AlignTradingSchema

-- ============================================================================
-- 004_trading_service_persistence_tables
-- ============================================================================

namespace TradingServicePersistenceTables

def id : Column :=
  { name := "id", type := "UUID", nullable := false, serverDefault := some "gen_random_uuid()" }

/-- A column that defaults to the empty document. -/
def document (name : String) : Column :=
  { name, type := "JSONB", nullable := false, serverDefault := some "'\x7b\x7d'::jsonb" }

def createdAt : Column :=
  { name := "created_at", type := "TIMESTAMP WITH TIME ZONE", nullable := false,
    serverDefault := some "NOW()" }

/-- The columns of `risk_incidents`. -/
def riskIncidents : List Column :=
  [id, { name := "rule_type", type := "TEXT", nullable := false }, document "parameters",
   document "actual_values", { name := "order_id", type := "UUID" },
   { name := "account_id", type := "UUID" },
   { name := "action_taken", type := "TEXT", nullable := false }, createdAt]

/-- The columns of `trade_audit_log`. -/
def tradeAuditLog : List Column :=
  [id, { name := "order_id", type := "UUID" },
   { name := "event_type", type := "TEXT", nullable := false }, document "payload", createdAt]

/-- `upgrade()`. -/
def upgrade (s : Schema) : Option Schema := do
  let s ← (if tableExists s "risk_incidents" then some s
    else s.createTable "risk_incidents" riskIncidents ["id"])
  let s ← (if tableExists s "trade_audit_log" then some s
    else s.createTable "trade_audit_log" tradeAuditLog ["id"])
  let s ← (if tableExists s "risk_incidents" &&
      !indexExists s "risk_incidents" "ix_risk_incidents_order_id" then
    s.createIndex "ix_risk_incidents_order_id" "risk_incidents" ["order_id"] false else some s)
  let s ← (if tableExists s "risk_incidents" &&
      !indexExists s "risk_incidents" "ix_risk_incidents_account_id" then
    s.createIndex "ix_risk_incidents_account_id" "risk_incidents" ["account_id"] false else some s)
  let s ← (if tableExists s "trade_audit_log" &&
      !indexExists s "trade_audit_log" "ix_trade_audit_log_order_id" then
    s.createIndex "ix_trade_audit_log_order_id" "trade_audit_log" ["order_id"] false else some s)
  return s

/-- `downgrade()`. -/
def downgrade (s : Schema) : Option Schema := do
  let s ← (if tableExists s "trade_audit_log" &&
      indexExists s "trade_audit_log" "ix_trade_audit_log_order_id" then
    s.dropIndex "ix_trade_audit_log_order_id" "trade_audit_log" else some s)
  let s ← (if tableExists s "risk_incidents" &&
      indexExists s "risk_incidents" "ix_risk_incidents_account_id" then
    s.dropIndex "ix_risk_incidents_account_id" "risk_incidents" else some s)
  let s ← (if tableExists s "risk_incidents" &&
      indexExists s "risk_incidents" "ix_risk_incidents_order_id" then
    s.dropIndex "ix_risk_incidents_order_id" "risk_incidents" else some s)
  let s ← (if tableExists s "trade_audit_log" then s.dropTable "trade_audit_log" else some s)
  let s ← (if tableExists s "risk_incidents" then s.dropTable "risk_incidents" else some s)
  return s

/-- What the upgrade creates, in its order; the downgrade drops it in the reverse one. -/
def created : List Guarded :=
  [.table "risk_incidents" riskIncidents ["id"], .table "trade_audit_log" tradeAuditLog ["id"],
   .index "ix_risk_incidents_order_id" "risk_incidents" ["order_id"] false,
   .index "ix_risk_incidents_account_id" "risk_incidents" ["account_id"] false,
   .index "ix_trade_audit_log_order_id" "trade_audit_log" ["order_id"] false]

variable {s s' : Schema} {t n : String} {columns : List String} {unique : Bool}

/-- An index step of the upgrade; its table is there. -/
theorem createIndex_up (h : tableExists s t = true) :
    (if tableExists s t && !indexExists s t n then s.createIndex n t columns unique else some s) =
      (Guarded.index n t columns unique).up s := by
  rw [index_up, h, Bool.true_and]
  cases indexExists s t n <;> rfl

theorem indexExists_of_tableExists (h : tableExists s t = false) : indexExists s t n = false := by
  refine Schema.any_eq_false.mpr fun o ho => ?_
  have htable := Schema.tableName_of_absent h o ho
  cases o with
  | index t' n' d => simp [SchemaObject.isIndex, show t' ≠ t from htable]
  | constraint t' n' d => cases d <;> simp [SchemaObject.isIndex, SchemaObject.isUnique,
      show t' ≠ t from htable]
  | _ => rfl

/-- An index step of the downgrade; without its table there is no index to find. -/
theorem dropIndex_down :
    (if tableExists s t && indexExists s t n then s.dropIndex n t else some s) =
      (Guarded.index n t columns unique).down s := by
  rw [index_down]
  cases h : tableExists s t with
  | true => rw [Bool.true_and]
  | false => rw [indexExists_of_tableExists h, Bool.and_false]

theorem tableExists_up {x : Guarded} (hx : x.up s = some s') (h : tableExists s t = true) :
    tableExists s' t = true := by
  obtain ⟨o, ho, htable⟩ := Schema.any_eq_true.mp h
  exact Schema.any_eq_true.mpr ⟨o, Guarded.up_subset hx ho, htable⟩

theorem upgrade_eq (s : Schema) : upgrade s = Guarded.upgrade created s := by
  simp only [upgrade, created, Guarded.upgrade, Option.bind_eq_bind, Option.bind_fun_some]
  refine Option.bind_congr fun s₁ h₁ => Option.bind_congr fun s₂ h₂ => ?_
  have h₁ : (Guarded.table "risk_incidents" riskIncidents ["id"]).up s = some s₁ := h₁
  have h₂ : (Guarded.table "trade_audit_log" tradeAuditLog ["id"]).up s₁ = some s₂ := h₂
  have hrisk : tableExists s₂ "risk_incidents" = true := tableExists_up h₂ (Guarded.up_present h₁)
  have haudit : tableExists s₂ "trade_audit_log" = true := Guarded.up_present h₂
  rw [createIndex_up hrisk]
  refine Option.bind_congr fun s₃ h₃ => ?_
  rw [createIndex_up (tableExists_up h₃ hrisk)]
  refine Option.bind_congr fun s₄ h₄ => ?_
  exact createIndex_up (tableExists_up h₄ (tableExists_up h₃ haudit))

theorem downgrade_eq (s : Schema) : downgrade s = Guarded.downgrade created.reverse s := by
  simp only [downgrade, created, List.reverse_cons, List.reverse_nil, List.cons_append,
    List.nil_append, Guarded.downgrade, Option.bind_eq_bind, Option.bind_fun_some]
  rw [dropIndex_down]
  refine Option.bind_congr fun s₁ _ => ?_
  rw [dropIndex_down]
  refine Option.bind_congr fun s₂ _ => ?_
  rw [dropIndex_down]
  rfl

theorem created_apart : created.Pairwise Guarded.Apart := by decide +kernel

theorem dropped_without : created.reverse.Pairwise Guarded.Without := by decide +kernel

/-- Neither of the two tables is there. -/
def Untouched (s : Schema) : Prop :=
  tableExists s "risk_incidents" = false ∧ tableExists s "trade_audit_log" = false

theorem untouched_iff : (∀ x ∈ created, x.present s = false) ↔ Untouched s := by
  constructor
  · intro h
    exact ⟨h _ List.mem_cons_self, h _ (List.mem_cons_of_mem _ List.mem_cons_self)⟩
  · rintro ⟨hrisk, haudit⟩
    simp only [created, List.forall_mem_cons, index_present]
    exact ⟨hrisk, haudit, indexExists_of_tableExists hrisk, indexExists_of_tableExists hrisk,
      indexExists_of_tableExists haudit, fun x hx => nomatch hx⟩

/-- The downgrade undoes the upgrade exactly if the upgrade created both tables. -/
theorem restores_iff (h : upgrade s = some s') : downgrade s' = some s ↔ Untouched s := by
  rw [upgrade_eq] at h
  rw [downgrade_eq, Guarded.restores_iff (List.reverse_perm _).symm created_apart dropped_without h]
  exact untouched_iff

end TradingServicePersistenceTables

-- ============================================================================
-- Both revisions
-- ============================================================================

/-- A table with its key only. -/
def bareTable (t : String) : Finset SchemaObject :=
  Schema.tableObjects t [{ name := "id", type := "UUID", nullable := false }] ["id"]

/-- The two tables that revision 003 alters, without any of what it guards. -/
def bareSchema : Schema where
  objects := bareTable "orders" ∪ bareTable "positions"
  closed := by decide +kernel

/-- A revision's downgrade restores the schema that its upgrade ran on exactly if nothing
    that the revision guards was there: the downgrade drops what it finds. -/
theorem downgrade_restores_iff (s s' : Schema) :
    (AlignTradingSchema.upgrade s = some s' →
      (AlignTradingSchema.downgrade s' = some s ↔ AlignTradingSchema.Untouched s)) ∧
    (TradingServicePersistenceTables.upgrade s = some s' →
      (TradingServicePersistenceTables.downgrade s' = some s ↔
        TradingServicePersistenceTables.Untouched s)) :=
  ⟨AlignTradingSchema.restores_iff, TradingServicePersistenceTables.restores_iff⟩

/-- Both revisions are undone on the bare schema. -/
theorem downgrade_restores_bare :
    (∃ s', AlignTradingSchema.upgrade bareSchema = some s' ∧
      AlignTradingSchema.downgrade s' = some bareSchema) ∧
    ∃ s', TradingServicePersistenceTables.upgrade bareSchema = some s' ∧
      TradingServicePersistenceTables.downgrade s' = some bareSchema := by
  constructor
  · have hsome : (AlignTradingSchema.upgrade bareSchema).isSome = true := by decide +kernel
    obtain ⟨s', hs'⟩ := Option.isSome_iff_exists.mp hsome
    refine ⟨s', hs', ((downgrade_restores_iff bareSchema s').1 hs').mpr ?_⟩
    unfold AlignTradingSchema.Untouched
    decide +kernel
  · have hsome : (TradingServicePersistenceTables.upgrade bareSchema).isSome = true := by
      decide +kernel
    obtain ⟨s', hs'⟩ := Option.isSome_iff_exists.mp hsome
    refine ⟨s', hs', ((downgrade_restores_iff bareSchema s').2 hs').mpr ?_⟩
    unfold TradingServicePersistenceTables.Untouched
    decide +kernel

-- What revision 002 creates of the tables that the two revisions look at, without its
-- references to other tables.

def required (name type : String) (serverDefault : Option String := none) : Column :=
  { name, type, nullable := false, serverDefault }

def orders002 : List Column :=
  [required "opened_at" "TIMESTAMPTZ", required "id" "UUID" (some "gen_random_uuid()"),
   { name := "client_order_id", type := "TEXT" }, { name := "account_id", type := "UUID" },
   { name := "strategy_id", type := "UUID" }, { name := "model_id", type := "UUID" },
   required "symbol" "TEXT", required "side" "TEXT", required "order_type" "TEXT",
   required "quantity" "DOUBLE PRECISION",
   required "filled_quantity" "DOUBLE PRECISION" (some "0"), required "status" "TEXT",
   required "version" "INTEGER" (some "1"), required "created_at" "TIMESTAMPTZ" (some "NOW()"),
   required "updated_at" "TIMESTAMPTZ" (some "NOW()")]

def positions002 : List Column :=
  [required "opened_at" "TIMESTAMPTZ", required "id" "UUID" (some "gen_random_uuid()"),
   { name := "account_id", type := "UUID" }, required "symbol" "TEXT", required "side" "TEXT",
   required "quantity" "DOUBLE PRECISION", required "entry_price" "DOUBLE PRECISION",
   { name := "price_current", type := "DOUBLE PRECISION" },
   required "profit" "DOUBLE PRECISION" (some "0"), { name := "closed_at", type := "TIMESTAMPTZ" },
   required "updated_at" "TIMESTAMPTZ" (some "NOW()")]

def riskIncidents002 : List Column :=
  [required "id" "UUID" (some "gen_random_uuid()"), required "rule_type" "TEXT",
   required "parameters" "JSONB", required "actual_values" "JSONB",
   { name := "order_id", type := "TEXT" }, { name := "account_id", type := "TEXT" },
   required "action_taken" "TEXT", required "created_at" "TIMESTAMPTZ" (some "NOW()")]

def schema002 : Schema where
  objects :=
    Schema.tableObjects "orders" orders002 ["id"] ∪
    Schema.tableObjects "positions" positions002 ["id"] ∪
    Schema.tableObjects "risk_incidents" riskIncidents002 ["id"] ∪
    {.constraint "orders" "orders_client_order_id_key" (.unique ["client_order_id"]),
     .index "orders" "ix_orders_account_status_opened"
       { columns := ["account_id", "status", "opened_at"] },
     .index "positions" "ix_positions_account_symbol_opened"
       { columns := ["account_id", "symbol", "opened_at"] }}
  closed := by decide +kernel

theorem upgrade_schema002 : (AlignTradingSchema.upgrade schema002).isSome = true := by
  decide +kernel

def schema003 : Schema := (AlignTradingSchema.upgrade schema002).get upgrade_schema002

/-- From revision 002 neither downgrade restores: the first loses the columns
    `client_order_id` and `version` of the orders, the second the risk incidents. -/
theorem downgrade_not_always_restores :
    (∃ s', AlignTradingSchema.upgrade schema002 = some s' ∧
      AlignTradingSchema.downgrade s' ≠ some schema002) ∧
    ∃ s', TradingServicePersistenceTables.upgrade schema003 = some s' ∧
      TradingServicePersistenceTables.downgrade s' ≠ some schema003 := by
  constructor
  · have hup : AlignTradingSchema.upgrade schema002 = some schema003 :=
      (Option.some_get upgrade_schema002).symm
    refine ⟨schema003, hup, fun hdown => ?_⟩
    have hversion := ((AlignTradingSchema.restores_iff hup).mp hdown).1 "version" (by simp)
    revert hversion
    decide +kernel
  · have hsome : (TradingServicePersistenceTables.upgrade schema003).isSome = true := by
      decide +kernel
    obtain ⟨s', hup⟩ := Option.isSome_iff_exists.mp hsome
    refine ⟨s', hup, fun hdown => ?_⟩
    have htable := ((TradingServicePersistenceTables.restores_iff hup).mp hdown).1
    revert htable
    decide +kernel

end Mtrader.Migrations
