/-
  Mtrader.Accounts.Atomicity

  What a failing commit leaves behind.  Registration, login, token refresh and the two
  writing calls of the vault commit their change first and its audit record after it:
  when the second commit fails, the call raises and the change stays.
-/

import Mtrader.Accounts.Plans
import Mtrader.Accounts.KeyMap

namespace Mtrader.Accounts

open Py Orm

/-- The rows of `users`, `refresh_tokens` and `api_key_vault` are the same. -/
structure SameTables (db db' : Tables) : Prop where
  users : db'.users.rows = db.users.rows
  refreshTokens : db'.refreshTokens.rows = db.refreshTokens.rows
  apiKeyVault : db'.apiKeyVault.rows = db.apiKeyVault.rows

theorem SameTables.refl (db : Tables) : SameTables db db := ⟨rfl, rfl, rfl⟩

theorem insert_rows_ne {R : Type} (t : Table R) (v : R) : (t.insert v).rows ≠ t.rows := by
  intro h
  have hlen := congrArg List.length h
  rw [Table.insert, List.length_append, List.length_singleton] at hlen
  omega

theorem delete_rows_ne {R : Type} {t : Table R} {r : Stored R} (hr : r ∈ t.rows) :
    (t.delete r.id).rows ≠ t.rows := by
  intro h
  rw [← h] at hr
  exact (Table.mem_delete.mp hr).2 rfl

/-- An update changes the rows if it changes the one row that it is about. -/
theorem update_rows_eq_iff {R : Type} {t : Table R} {r : Stored R} (hr : r ∈ t.rows) (f : R → R) :
    (t.update r.id f).rows = t.rows ↔ f r.val = r.val := by
  constructor
  · intro h
    have hmem : (⟨r.id, f r.val⟩ : Stored R) ∈ (t.update r.id f).rows :=
      Table.mem_update.mpr (Or.inr ⟨r, hr, rfl, rfl⟩)
    rw [h] at hmem
    exact congrArg Stored.val (Table.eq_of_id hmem hr rfl)
  · intro h
    show t.rows.map _ = t.rows
    conv_rhs => rw [← List.map_id t.rows]
    refine List.map_congr_left fun r' hr' => ?_
    split
    · next hid =>
        rw [Table.eq_of_id hr' hr hid, h]
        rfl
    · rfl

-- ============================================================================
-- The calls
-- ============================================================================

/-- A call that writes. -/
inductive Op
  | registerUser (draws : Draws) (payload : RegisterRequest)
  | login (draws : Draws) (payload : LoginRequest) (ip : Option String)
  | refreshTokens (draws : Draws) (refreshToken deviceFingerprint : String) (ip : Option String)
  | upsertKey (draws : Vault.Draws) (userId : ℕ) (provider apiKey : String)
  | deleteKey (userId : ℕ) (keyId : ℤ)

variable (F : Type) [Prims F] (rt : Runtime) (env : Vaulting)

/-- If the call raises because its `n`-th commit fails, the tables are as they were. -/
def Op.Atomic (db : Tables) (n : ℕ) : Op → Prop
  | registerUser draws payload =>
      M.AtomicAt Failure.commit SameTables (Accounts.registerUser rt draws payload) db n
  | login draws payload ip =>
      M.AtomicAt Failure.commit SameTables (Accounts.login rt draws payload ip) db n
  | refreshTokens draws token device ip =>
      M.AtomicAt Failure.commit SameTables (Accounts.refreshTokens F rt draws token device ip) db n
  | upsertKey draws userId provider apiKey =>
      M.AtomicAt Failure.commit SameTables (Accounts.upsertKey env draws userId provider apiKey)
        db n
  | deleteKey userId keyId =>
      M.AtomicAt Failure.commit SameTables (Accounts.deleteKey userId keyId) db n

/-- The call is not refused, and what it writes is not what is there already. -/
def Op.Changes (db : Tables) : Op → Prop
  | registerUser _ payload => ∀ u ∈ db.users.rows, u.val.email ≠ rt.lower payload.email
  | login _ payload _ =>
      rt.refreshTokenTtlDays.isSome ∧
      ∃ user, db.users.select (fun u => u.val.email = rt.lower payload.email) = some user ∧
        rt.verifyPassword payload.password user.val.passwordHash = true
  | refreshTokens draws token device _ =>
      ∃ row, db.refreshTokens.select (matching rt token) = some row ∧
        Refreshable F rt draws device db row
  | upsertKey draws userId provider apiKey =>
      ∀ row, db.apiKeyVault.select (keyOf userId provider) = some row →
        ¬ (row.val.keyLast4 = lastChars 4 apiKey ∧ row.val.encrypted =
          Vault.encryptSecret env.aes env.encryptionMasterKey draws apiKey)
  | deleteKey userId keyId =>
      ∃ r ∈ db.apiKeyVault.rows, (r.id : ℤ) = keyId ∧ r.val.userId = userId

-- ============================================================================
-- When a call is atomic
-- ============================================================================

section Atomic

variable {rt : Runtime} {env : Vaulting} {db : Tables} {n : ℕ} {α : Type} {x : Service α}

theorem atomicAt_of_refused (h : Refused x db) :
    M.AtomicAt Failure.commit SameTables x db n := by
  obtain ⟨e, -, hfollows⟩ := h
  exact M.atomicAt_of_refuse SameTables.refl hfollows

theorem atomicAt_of_marked {row : Stored RefreshToken} (h : Marked x db row) :
    M.AtomicAt Failure.commit SameTables x db n := by
  obtain ⟨e, he, hfollows⟩ := h
  exact M.atomicAt_of_mark SameTables.refl he hfollows

theorem atomicAt_recorded_iff {change : Tables → Tables} {a : α} (h : Recorded x db change a) :
    M.AtomicAt Failure.commit SameTables x db n ↔ ¬ (n = 1 ∧ ¬ SameTables db (change db)) := by
  obtain ⟨entry, hfollows⟩ := h
  exact M.atomicAt_audited_iff SameTables.refl hfollows

theorem atomic_registerUser_iff (draws : Draws) (payload : RegisterRequest) :
    (Op.registerUser draws payload).Atomic F rt env db n ↔
      ¬ (n = 1 ∧ (Op.registerUser draws payload).Changes F rt env db) := by
  rw [Op.Atomic, Op.Changes]
  cases hsel : db.users.select (fun u => u.val.email = rt.lower payload.email) with
  | some user =>
      obtain ⟨hmem, hemail⟩ := Table.select_eq_some hsel
      refine iff_of_true (atomicAt_of_refused (registerUser_refused hsel)) ?_
      exact fun h => h.2 user hmem (decide_eq_true_iff.mp hemail)
  | none =>
      obtain ⟨user, a, hrecorded⟩ := registerUser_recorded draws hsel
      rw [atomicAt_recorded_iff hrecorded]
      refine not_congr (and_congr_right fun _ => iff_of_true ?_ ?_)
      · exact fun h => insert_rows_ne _ _ h.users
      · intro u hu hemail
        have hfalse := Table.select_eq_none.mp hsel u hu
        rw [decide_eq_true hemail] at hfalse
        cases hfalse

theorem atomic_login_iff (draws : Draws) (payload : LoginRequest) (ip : Option String) :
    (Op.login draws payload ip).Atomic F rt env db n ↔
      ¬ (n = 1 ∧ (Op.login draws payload ip).Changes F rt env db) := by
  rw [Op.Atomic, Op.Changes]
  by_cases hchanges : rt.refreshTokenTtlDays.isSome ∧ ∃ user, Authenticated rt db payload user
  · obtain ⟨hdays, user, hauth⟩ := hchanges
    obtain ⟨ttlDays, hdays'⟩ := Option.isSome_iff_exists.mp hdays
    obtain ⟨a, -, hrecorded⟩ := login_recorded draws ip hauth hdays'
    rw [atomicAt_recorded_iff hrecorded]
    refine not_congr (and_congr_right fun _ => iff_of_true ?_ ?_)
    · exact fun h => insert_rows_ne _ _ h.refreshTokens
    · exact ⟨hdays, user, hauth.found, hauth.verified⟩
  · refine iff_of_true (atomicAt_of_refused (login_refused draws ip ?_)) ?_
    · intro user ttlDays hauth hdays
      exact hchanges ⟨by rw [hdays]; rfl, user, hauth⟩
    · rintro ⟨-, hdays, user, hfound, hverified⟩
      exact hchanges ⟨hdays, user, hfound, hverified⟩

theorem atomic_refreshTokens_iff (draws : Draws) (token device : String) (ip : Option String) :
    (Op.refreshTokens draws token device ip).Atomic F rt env db n ↔
      ¬ (n = 1 ∧ (Op.refreshTokens draws token device ip).Changes F rt env db) := by
  rw [Op.Atomic, Op.Changes]
  by_cases hchanges : ∃ row, db.refreshTokens.select (matching rt token) = some row ∧
      Refreshable F rt draws device db row
  · obtain ⟨row, hsel, hrow⟩ := hchanges
    obtain ⟨user, huser⟩ := Option.isSome_iff_exists.mp hrow.user
    obtain ⟨ttlDays, hdays⟩ := Option.isSome_iff_exists.mp hrow.ttl
    obtain ⟨a, -, hrecorded⟩ := refreshTokens_recorded ip hsel hrow huser hdays
    rw [atomicAt_recorded_iff hrecorded]
    refine not_congr (and_congr_right fun _ => iff_of_true ?_ ⟨row, hsel, hrow⟩)
    intro h
    have hlen := congrArg List.length h.refreshTokens
    simp [Tables.addRefreshToken, Tables.revoke, Table.insert, Table.update] at hlen
  · refine iff_of_true ?_ fun h => hchanges h.2
    have hbad : ∀ row, db.refreshTokens.select (matching rt token) = some row →
        ¬ Refreshable F rt draws device db row := fun row hsel hrow => hchanges ⟨row, hsel, hrow⟩
    rcases refreshTokens_refused hbad with hrefused | ⟨row, -, hmarked⟩
    · exact atomicAt_of_refused hrefused
    · exact atomicAt_of_marked hmarked

/-- Overwriting with what is there already changes nothing. -/
theorem overwrite_eq_iff {apiKey : String} {e : Vault.Encrypted} {row : ApiKeyVault} :
    overwrite apiKey e row = row ↔ row.keyLast4 = lastChars 4 apiKey ∧ row.encrypted = e := by
  cases row
  cases e
  simp only [overwrite, ApiKeyVault.encrypted, ApiKeyVault.mk.injEq, Vault.Encrypted.mk.injEq,
    true_and]
  constructor
  · rintro ⟨rfl, rfl, rfl, rfl, rfl⟩
    exact ⟨rfl, rfl, rfl, rfl, rfl⟩
  · rintro ⟨rfl, rfl, rfl, rfl, rfl⟩
    exact ⟨rfl, rfl, rfl, rfl, rfl⟩

theorem atomic_upsertKey_iff (draws : Vault.Draws) (userId : ℕ) (provider apiKey : String) :
    (Op.upsertKey draws userId provider apiKey).Atomic F rt env db n ↔
      ¬ (n = 1 ∧ (Op.upsertKey draws userId provider apiKey).Changes F rt env db) := by
  rw [Op.Atomic, Op.Changes]
  cases hsel : db.apiKeyVault.select (keyOf userId provider) with
  | none =>
      obtain ⟨row, a, hrecorded⟩ := upsertKey_new hsel
      rw [atomicAt_recorded_iff hrecorded]
      refine not_congr (and_congr_right fun _ => iff_of_true ?_ nofun)
      exact fun h => insert_rows_ne _ _ h.apiKeyVault
  | some row =>
      obtain ⟨a, hrecorded⟩ := upsertKey_old hsel
      rw [atomicAt_recorded_iff hrecorded]
      refine not_congr (and_congr_right fun _ => ?_)
      have hsame : SameTables db (db.setKey row.id (overwrite apiKey
          (Vault.encryptSecret env.aes env.encryptionMasterKey draws apiKey))) ↔
          overwrite apiKey (Vault.encryptSecret env.aes env.encryptionMasterKey draws apiKey)
            row.val = row.val := by
        rw [← update_rows_eq_iff (Table.select_eq_some hsel).1]
        exact ⟨SameTables.apiKeyVault, fun h => ⟨rfl, rfl, h⟩⟩
      rw [hsame, overwrite_eq_iff]
      constructor
      · rintro hne row' hrow'
        cases hrow'
        exact hne
      · exact fun hall => hall row rfl

theorem atomic_deleteKey_iff (userId : ℕ) (keyId : ℤ) :
    (Op.deleteKey userId keyId).Atomic F rt env db n ↔
      ¬ (n = 1 ∧ (Op.deleteKey userId keyId).Changes F rt env db) := by
  rw [Op.Atomic, Op.Changes]
  cases hsel : db.apiKeyVault.select (fun r => (r.id : ℤ) = keyId && r.val.userId = userId) with
  | none =>
      refine iff_of_true (atomicAt_of_refused (deleteKey_refused hsel)) ?_
      rintro ⟨-, r, hr, hid, hu⟩
      have hfalse := Table.select_eq_none.mp hsel r hr
      rw [hid, hu] at hfalse
      simp at hfalse
  | some row =>
      obtain ⟨hr, hkey⟩ := Table.select_eq_some hsel
      rw [Bool.and_eq_true, decide_eq_true_iff, decide_eq_true_iff] at hkey
      rw [atomicAt_recorded_iff (deleteKey_recorded hsel)]
      refine not_congr (and_congr_right fun _ => iff_of_true ?_ ⟨row, hr, hkey⟩)
      exact fun h => delete_rows_ne hr h.apiKeyVault

end Atomic

/-- A call leaves the tables as they were when its `n`-th commit fails, unless that is the
    commit of the audit record of a change. -/
theorem atomic_iff (op : Op) (db : Tables) (n : ℕ) :
    op.Atomic F rt env db n ↔ ¬ (n = 1 ∧ op.Changes F rt env db) := by
  cases op with
  | registerUser draws payload => exact atomic_registerUser_iff F draws payload
  | login draws payload ip => exact atomic_login_iff F draws payload ip
  | refreshTokens draws token device ip => exact atomic_refreshTokens_iff F draws token device ip
  | upsertKey draws userId provider apiKey =>
      exact atomic_upsertKey_iff F draws userId provider apiKey
  | deleteKey userId keyId => exact atomic_deleteKey_iff F userId keyId

/-- The key is stored although the call raises. -/
theorem upsertKey_not_atomic :
    ¬ ∀ (rt : Runtime) (env : Vaulting) (op : Op) (db : Tables) (n : ℕ),
      op.Atomic ℚ rt env db n := by
  intro hall
  let rt : Runtime :=
    { refreshTokenTtlDays := none, inactivityTimeoutMinutes := none, awareTimestamps := true,
      lower := id, verifyPassword := fun _ _ => false, hashRefreshToken := id }
  have hatomic := hall rt taggedVault (.upsertKey zeroDraws 1 "newsapi" "news-key-123456")
    noTables 1
  rw [atomic_upsertKey_iff] at hatomic
  exact hatomic ⟨rfl, nofun⟩

end Mtrader.Accounts
