/-
  Mtrader.Accounts.KeyMap

  The key vault as a map: for each user and provider, the secret that was stored last
  and not deleted since.  The rows of `api_key_vault`, with their two layers of
  encryption, represent that map after any calls, one at a time, whose commits
  succeed.
-/

import Mtrader.Accounts.VaultService

namespace Mtrader.Accounts

open Py Orm

-- ============================================================================
-- Calls
-- ============================================================================

inductive Call
  | upsertKey (draws : Vault.Draws) (userId : ℕ) (provider apiKey : String)
  | listKeys (userId : ℕ)
  | deleteKey (userId : ℕ) (keyId : ℤ)
  | getKeyForRuntime (userId : ℕ) (provider : String)

/-- Whose call it is. -/
def Call.userId : Call → ℕ
  | upsertKey _ userId _ _ => userId
  | listKeys userId => userId
  | deleteKey userId _ => userId
  | getKeyForRuntime userId _ => userId

inductive Answer
  | stored (row : Stored ApiKeyVault)
  | keys (rows : List (Stored ApiKeyVault))
  | deleted
  | secret (apiKey : String)
  deriving DecidableEq, Repr

def Call.code (env : Vaulting) : Call → Service Answer
  | upsertKey draws userId provider apiKey => do
      return .stored (← Accounts.upsertKey env draws userId provider apiKey)
  | listKeys userId => do return .keys (← Accounts.listKeys env userId)
  | deleteKey userId keyId => do
      Accounts.deleteKey userId keyId
      return .deleted
  | getKeyForRuntime userId provider => do
      return .secret (← Accounts.getKeyForRuntime env userId provider)

/-- A call in a session of its own, with every commit succeeding. -/
def serve (env : Vaulting) (call : Call) (db : Tables) : Except Failure Answer × Tables :=
  (call.code env).run (fun _ => false) db

-- ============================================================================
-- What each call does
-- ============================================================================

section Calls

variable (env : Vaulting) {db : Tables} {userId : ℕ} {keyId : ℤ} {provider : String}
  {row : Stored ApiKeyVault}

theorem serve_upsertKey_new (draws : Vault.Draws) (apiKey : String)
    (h : db.apiKeyVault.select (keyOf userId provider) = none) :
    ∃ row : ApiKeyVault,
      row = newKey userId provider apiKey
        (Vault.encryptSecret env.aes env.encryptionMasterKey draws apiKey) ∧
      (serve env (.upsertKey draws userId provider apiKey) db).1 =
        .ok (.stored ⟨db.apiKeyVault.seq, row⟩) ∧
      (serve env (.upsertKey draws userId provider apiKey) db).2.apiKeyVault =
        db.apiKeyVault.insert row := by
  refine ⟨_, rfl, ?_, ?_⟩ <;>
    (simp only [serve, Call.code, upsertKey, M.run, M.bind_apply, M.read, Session.start, h]
     rfl)

theorem serve_upsertKey_old (draws : Vault.Draws) (apiKey : String)
    (h : db.apiKeyVault.select (keyOf userId provider) = some row) :
    ∃ f : ApiKeyVault → ApiKeyVault,
      f = overwrite apiKey (Vault.encryptSecret env.aes env.encryptionMasterKey draws apiKey) ∧
      (serve env (.upsertKey draws userId provider apiKey) db).1 =
        .ok (.stored ⟨row.id, f row.val⟩) ∧
      (serve env (.upsertKey draws userId provider apiKey) db).2.apiKeyVault =
        db.apiKeyVault.update row.id f := by
  refine ⟨_, rfl, ?_, ?_⟩ <;>
    (simp only [serve, Call.code, upsertKey, M.run, M.bind_apply, M.read, Session.start, h]
     rfl)

theorem serve_listKeys :
    serve env (.listKeys userId) db =
      (.ok (.keys ((db.apiKeyVault.rows.filter fun r => r.val.userId = userId).mergeSort
        fun r r' => env.collate r.val.provider r'.val.provider)), db) := rfl

theorem serve_deleteKey_none
    (h : db.apiKeyVault.select (fun r => (r.id : ℤ) = keyId && r.val.userId = userId) = none) :
    serve env (.deleteKey userId keyId) db = (.error (.http 404 "Key not found"), db) := by
  simp only [serve, Call.code, deleteKey, M.run, M.bind_apply, M.read, Session.start, h]
  rfl

theorem serve_deleteKey_some
    (h : db.apiKeyVault.select (fun r => (r.id : ℤ) = keyId && r.val.userId = userId) =
      some row) :
    (serve env (.deleteKey userId keyId) db).1 = .ok .deleted ∧
    (serve env (.deleteKey userId keyId) db).2.apiKeyVault = db.apiKeyVault.delete row.id := by
  constructor <;>
    (simp only [serve, Call.code, deleteKey, M.run, M.bind_apply, M.read, Session.start, h]
     rfl)

theorem serve_getKey_none (h : db.apiKeyVault.select (keyOf userId provider) = none) :
    serve env (.getKeyForRuntime userId provider) db =
      (.error (.http 404 "Provider key not found"), db) := by
  simp only [serve, Call.code, getKeyForRuntime, M.run, M.bind_apply, M.read, Session.start, h]
  rfl

theorem serve_getKey_some {apiKey : String}
    (h : db.apiKeyVault.select (keyOf userId provider) = some row)
    (hdecrypt : Vault.decryptSecret env.aes env.encryptionMasterKey row.val.encrypted =
      .ok apiKey) :
    (serve env (.getKeyForRuntime userId provider) db).1 = .ok (.secret apiKey) ∧
    (serve env (.getKeyForRuntime userId provider) db).2.apiKeyVault = db.apiKeyVault := by
  constructor <;>
    (simp only [serve, Call.code, getKeyForRuntime, M.run, M.bind_apply, M.read, Session.start, h,
      hdecrypt]
     rfl)

end Calls

-- ============================================================================
-- The map
-- ============================================================================

/-- What is stored for a user and a provider: the secret, and the number under which
    the vault lists it. -/
structure Held where
  id : ℕ
  secret : String

abbrev KeyMap : Type := ℕ → String → Option Held

namespace KeyMap

variable (m : KeyMap)

def set (userId : ℕ) (provider : String) (h : Held) : KeyMap := fun u p =>
  if u = userId ∧ p = provider then some h else m u p

/-- Forget what the user has stored under a number. -/
def drop (userId : ℕ) (keyId : ℤ) : KeyMap := fun u p =>
  if u = userId then (m u p).filter fun h => (h.id : ℤ) ≠ keyId else m u p

/-- What a call has done to the map, going by its answer. -/
def after : Call → Except Failure Answer → KeyMap
  | .upsertKey _ userId provider apiKey, .ok (.stored row) => m.set userId provider ⟨row.id, apiKey⟩
  | .deleteKey userId keyId, .ok .deleted => m.drop userId keyId
  | _, _ => m

theorem set_self (userId : ℕ) (provider : String) (h : Held) :
    m.set userId provider h userId provider = some h := if_pos ⟨rfl, rfl⟩

theorem set_other {userId u : ℕ} {provider p : String} (h : Held)
    (hne : ¬ (u = userId ∧ p = provider)) : m.set userId provider h u p = m u p := if_neg hne

theorem drop_eq_some {userId u : ℕ} {p : String} {keyId : ℤ} {h : Held} :
    m.drop userId keyId u p = some h ↔ m u p = some h ∧ ¬ (u = userId ∧ (h.id : ℤ) = keyId) := by
  rw [drop]
  by_cases hu : u = userId
  · rw [if_pos hu, Option.filter_eq_some_iff, decide_eq_true_iff]
    exact and_congr_right fun _ => ⟨fun hne heq => hne heq.2, fun hne heq => hne ⟨hu, heq⟩⟩
  · rw [if_neg hu]
    exact ⟨fun hm => ⟨hm, fun heq => hu heq.1⟩, fun hm => hm.1⟩

/-- A call leaves what other users have stored. -/
theorem after_other {call : Call} {u : ℕ} (hu : u ≠ call.userId) (answer : Except Failure Answer)
    (p : String) : m.after call answer u p = m u p := by
  rw [after.eq_def]
  split
  · exact m.set_other _ fun heq => hu heq.1
  · exact if_neg hu
  · rfl

end KeyMap

/-- The row of a user and provider carries what the map holds for them, under both layers
    of encryption. -/
def Carries (env : Vaulting) (row : Stored ApiKeyVault) (h : Held) : Prop :=
  h.id = row.id ∧ row.val.keyLast4 = lastChars 4 h.secret ∧
    Vault.decryptSecret env.aes env.encryptionMasterKey row.val.encrypted = .ok h.secret

/-- The rows represent the map. -/
structure Represents (env : Vaulting) (t : Table ApiKeyVault) (m : KeyMap) : Prop where
  /-- The constraint `uq_user_provider`. -/
  one : ∀ r ∈ t.rows, ∀ r' ∈ t.rows, r.val.userId = r'.val.userId →
    r.val.provider = r'.val.provider → r = r'
  carried : ∀ r ∈ t.rows, ∃ h, m r.val.userId r.val.provider = some h ∧ Carries env r h
  stored : ∀ u p h, m u p = some h → ∃ r ∈ t.rows, r.val.userId = u ∧ r.val.provider = p

namespace Represents

variable {env : Vaulting} {t : Table ApiKeyVault} {m : KeyMap}

theorem empty (h : t.rows = []) : Represents env t fun _ _ => none where
  one := by
    intro r hr
    rw [h] at hr
    cases hr
  carried := by
    intro r hr
    rw [h] at hr
    cases hr
  stored := nofun

theorem keyOf_eq_true {u : ℕ} {p : String} {r : Stored ApiKeyVault} :
    keyOf u p r = true ↔ r.val.userId = u ∧ r.val.provider = p := by
  rw [keyOf, Bool.and_eq_true, decide_eq_true_iff, decide_eq_true_iff]

theorem select_none (hrep : Represents env t m) {u : ℕ} {p : String}
    (h : t.select (keyOf u p) = none) : m u p = none := by
  rw [Table.select_eq_none] at h
  cases hm : m u p with
  | none => rfl
  | some held =>
      obtain ⟨r, hr, hkey⟩ := hrep.stored u p held hm
      have hfalse := h r hr
      rw [keyOf_eq_true.mpr hkey] at hfalse
      cases hfalse

theorem select_some (hrep : Represents env t m) {u : ℕ} {p : String} {r : Stored ApiKeyVault}
    (h : t.select (keyOf u p) = some r) :
    r ∈ t.rows ∧ r.val.userId = u ∧ r.val.provider = p ∧ ∃ held, m u p = some held ∧
      Carries env r held := by
  obtain ⟨hr, hkey⟩ := Table.select_eq_some h
  obtain ⟨rfl, rfl⟩ := keyOf_eq_true.mp hkey
  exact ⟨hr, rfl, rfl, hrep.carried r hr⟩

/-- What a freshly encrypted row carries. -/
theorem carries_encrypted {k : ℕ} {row : ApiKeyVault} {apiKey : String} (draws : Vault.Draws)
    (hlast : row.keyLast4 = lastChars 4 apiKey)
    (henc : row.encrypted = Vault.encryptSecret env.aes env.encryptionMasterKey draws apiKey) :
    Carries env ⟨k, row⟩ ⟨k, apiKey⟩ :=
  ⟨rfl, hlast, by rw [henc, Vault.decryptSecret_encryptSecret]⟩

theorem insert (hrep : Represents env t m) {u : ℕ} {p apiKey : String} {row : ApiKeyVault}
    (hsel : t.select (keyOf u p) = none) (hu : row.userId = u) (hp : row.provider = p)
    (hcarries : Carries env ⟨t.seq, row⟩ ⟨t.seq, apiKey⟩) :
    Represents env (t.insert row) (m.set u p ⟨t.seq, apiKey⟩) := by
  have hnone : ∀ r ∈ t.rows, ¬ (r.val.userId = u ∧ r.val.provider = p) := by
    intro r hr hkey
    have hfalse := Table.select_eq_none.mp hsel r hr
    rw [keyOf_eq_true.mpr hkey] at hfalse
    cases hfalse
  refine ⟨?_, ?_, ?_⟩
  · intro r hr r' hr' huser hprov
    rw [Table.mem_insert] at hr hr'
    rcases hr with hr | rfl
    · rcases hr' with hr' | rfl
      · exact hrep.one r hr r' hr' huser hprov
      · exact absurd ⟨huser.trans hu, hprov.trans hp⟩ (hnone r hr)
    · rcases hr' with hr' | rfl
      · exact absurd ⟨huser.symm.trans hu, hprov.symm.trans hp⟩ (hnone r' hr')
      · rfl
  · intro r hr
    rw [Table.mem_insert] at hr
    rcases hr with hr | rfl
    · obtain ⟨held, hm, hc⟩ := hrep.carried r hr
      exact ⟨held, by rw [m.set_other _ (hnone r hr), hm], hc⟩
    · exact ⟨_, by rw [hu, hp, m.set_self], hcarries⟩
  · intro u' p' held hm
    by_cases hkey : u' = u ∧ p' = p
    · exact ⟨⟨t.seq, row⟩, Table.mem_insert.mpr (Or.inr rfl), hu.trans hkey.1.symm,
        hp.trans hkey.2.symm⟩
    · rw [m.set_other _ hkey] at hm
      obtain ⟨r, hr, hrkey⟩ := hrep.stored u' p' held hm
      exact ⟨r, Table.mem_insert.mpr (Or.inl hr), hrkey⟩

theorem update (hrep : Represents env t m) {u : ℕ} {p apiKey : String} {r₀ : Stored ApiKeyVault}
    {f : ApiKeyVault → ApiKeyVault} (hsel : t.select (keyOf u p) = some r₀)
    (hu : ∀ row, (f row).userId = row.userId) (hp : ∀ row, (f row).provider = row.provider)
    (hcarries : Carries env ⟨r₀.id, f r₀.val⟩ ⟨r₀.id, apiKey⟩) :
    Represents env (t.update r₀.id f) (m.set u p ⟨r₀.id, apiKey⟩) := by
  obtain ⟨hr₀, hu₀, hp₀, -⟩ := hrep.select_some hsel
  -- every row of the new table comes from the old row with its number, user and provider
  have hold : ∀ r ∈ (t.update r₀.id f).rows, ∃ r' ∈ t.rows, r'.id = r.id ∧
      r'.val.userId = r.val.userId ∧ r'.val.provider = r.val.provider := by
    intro r hr
    rcases Table.mem_update.mp hr with ⟨hr, -⟩ | ⟨r', hr', hid, rfl⟩
    · exact ⟨r, hr, rfl, rfl, rfl⟩
    · exact ⟨r', hr', hid, (hu r'.val).symm, (hp r'.val).symm⟩
  refine ⟨?_, ?_, ?_⟩
  · intro r hr r' hr' huser hprov
    obtain ⟨s, hs, hsid, hsu, hsp⟩ := hold r hr
    obtain ⟨s', hs', hsid', hsu', hsp'⟩ := hold r' hr'
    have heq : s = s' := hrep.one s hs s' hs' (by rw [hsu, hsu', huser]) (by rw [hsp, hsp', hprov])
    exact Table.eq_of_id hr hr' (by rw [← hsid, ← hsid', heq])
  · intro r hr
    rcases Table.mem_update.mp hr with ⟨hr, hne⟩ | ⟨r', hr', hid, rfl⟩
    · obtain ⟨held, hm, hc⟩ := hrep.carried r hr
      refine ⟨held, ?_, hc⟩
      rw [m.set_other, hm]
      rintro ⟨hru, hrp⟩
      exact hne (congrArg Stored.id
        (hrep.one r hr r₀ hr₀ (hru.trans hu₀.symm) (hrp.trans hp₀.symm)))
    · have heq : r' = r₀ := Table.eq_of_id hr' hr₀ hid
      rw [heq]
      refine ⟨_, ?_, hcarries⟩
      rw [hu, hp, hu₀, hp₀, m.set_self]
  · intro u' p' held hm
    by_cases hkey : u' = u ∧ p' = p
    · refine ⟨⟨r₀.id, f r₀.val⟩, Table.mem_update.mpr (Or.inr ⟨r₀, hr₀, rfl, rfl⟩), ?_, ?_⟩
      · rw [hu, hu₀, hkey.1]
      · rw [hp, hp₀, hkey.2]
    · rw [m.set_other _ hkey] at hm
      obtain ⟨r, hr, hru, hrp⟩ := hrep.stored u' p' held hm
      refine ⟨r, Table.mem_update.mpr (Or.inl ⟨hr, fun hid => hkey ?_⟩), hru, hrp⟩
      rw [← hru, ← hrp, Table.eq_of_id hr hr₀ hid]
      exact ⟨hu₀, hp₀⟩

theorem delete (hrep : Represents env t m) {u : ℕ} {r₀ : Stored ApiKeyVault} (hr₀ : r₀ ∈ t.rows)
    (hu₀ : r₀.val.userId = u) : Represents env (t.delete r₀.id) (m.drop u r₀.id) := by
  refine ⟨?_, ?_, ?_⟩
  · intro r hr r' hr'
    exact hrep.one r (Table.mem_delete.mp hr).1 r' (Table.mem_delete.mp hr').1
  · intro r hr
    obtain ⟨hr, hne⟩ := Table.mem_delete.mp hr
    obtain ⟨held, hm, hc⟩ := hrep.carried r hr
    refine ⟨held, m.drop_eq_some.mpr ⟨hm, fun heq => hne ?_⟩, hc⟩
    rw [← hc.1]
    exact Int.ofNat.inj heq.2
  · intro u' p' held hm
    obtain ⟨hm, hkept⟩ := m.drop_eq_some.mp hm
    obtain ⟨r, hr, hru, hrp⟩ := hrep.stored u' p' held hm
    refine ⟨r, Table.mem_delete.mpr ⟨hr, fun hid => hkept ?_⟩, hru, hrp⟩
    have heq : r = r₀ := Table.eq_of_id hr hr₀ hid
    obtain ⟨held', hm', hc'⟩ := hrep.carried r hr
    rw [hru, hrp, hm] at hm'
    cases hm'
    exact ⟨by rw [← hru, heq, hu₀], by rw [hc'.1, hid]⟩

end Represents

-- ============================================================================
-- Any calls
-- ============================================================================

/-- The database, and the map that the answers so far have made. -/
structure VaultState where
  db : Tables
  map : KeyMap

/-- A database whose vault is empty. -/
def VaultState.start (db : Tables) : VaultState := ⟨db, fun _ _ => none⟩

def VaultState.step (env : Vaulting) (s : VaultState) (call : Call) : VaultState :=
  ⟨(serve env call s.db).2, s.map.after call (serve env call s.db).1⟩

def VaultState.run (env : Vaulting) : VaultState → List Call → VaultState :=
  List.foldl (step env)

section Steps

variable {env : Vaulting} {s : VaultState}

theorem represents_upsertKey (hrep : Represents env s.db.apiKeyVault s.map) (draws : Vault.Draws)
    (u : ℕ) (p apiKey : String) :
    Represents env (s.step env (.upsertKey draws u p apiKey)).db.apiKeyVault
      (s.step env (.upsertKey draws u p apiKey)).map := by
  rw [VaultState.step]
  dsimp only
  cases hsel : s.db.apiKeyVault.select (keyOf u p) with
  | none =>
      obtain ⟨row, hrow, hanswer, htable⟩ := serve_upsertKey_new env draws apiKey hsel
      rw [hanswer, htable, KeyMap.after]
      refine hrep.insert hsel ?_ ?_ (Represents.carries_encrypted draws ?_ ?_) <;> rw [hrow] <;> rfl
  | some row =>
      obtain ⟨f, hf, hanswer, htable⟩ := serve_upsertKey_old env draws apiKey hsel
      rw [hanswer, htable, KeyMap.after]
      refine hrep.update hsel ?_ ?_ (Represents.carries_encrypted draws ?_ ?_) <;> rw [hf] <;>
        first | rfl | exact fun _ => rfl

/-- `delete_key` finds the row that the map has under the number. -/
theorem serve_deleteKey (hrep : Represents env s.db.apiKeyVault s.map) (u : ℕ) (k : ℤ) :
    (∃ row ∈ s.db.apiKeyVault.rows, (row.id : ℤ) = k ∧ row.val.userId = u ∧
      (serve env (.deleteKey u k) s.db).1 = .ok .deleted ∧
      (serve env (.deleteKey u k) s.db).2.apiKeyVault = s.db.apiKeyVault.delete row.id) ∨
    ((∀ p h, s.map u p = some h → (h.id : ℤ) ≠ k) ∧
      serve env (.deleteKey u k) s.db = (.error (.http 404 "Key not found"), s.db)) := by
  cases hsel : s.db.apiKeyVault.select
      (fun r => (r.id : ℤ) = k && r.val.userId = u) with
  | none =>
      refine Or.inr ⟨?_, serve_deleteKey_none env hsel⟩
      intro p h hm hid
      obtain ⟨r, hr, hru, hrp⟩ := hrep.stored u p h hm
      obtain ⟨h', hm', hc⟩ := hrep.carried r hr
      rw [hru, hrp, hm] at hm'
      cases hm'
      have hfalse := Table.select_eq_none.mp hsel r hr
      rw [← hc.1, hid, hru] at hfalse
      simp at hfalse
  | some row =>
      obtain ⟨hr, hkey⟩ := Table.select_eq_some hsel
      rw [Bool.and_eq_true, decide_eq_true_iff, decide_eq_true_iff] at hkey
      obtain ⟨hanswer, htable⟩ := serve_deleteKey_some env hsel
      exact Or.inl ⟨row, hr, hkey.1, hkey.2, hanswer, htable⟩

theorem represents_step (hrep : Represents env s.db.apiKeyVault s.map) (call : Call) :
    Represents env (s.step env call).db.apiKeyVault (s.step env call).map := by
  cases call with
  | upsertKey draws u p apiKey => exact represents_upsertKey hrep draws u p apiKey
  | listKeys u => exact hrep
  | deleteKey u k =>
      rw [VaultState.step]
      dsimp only
      rcases serve_deleteKey hrep u k with ⟨row, hr, hid, hu, hanswer, htable⟩ | ⟨-, hserve⟩
      · rw [hanswer, htable, KeyMap.after, ← hid]
        exact hrep.delete hr hu
      · rw [hserve]
        exact hrep
  | getKeyForRuntime u p =>
      rw [VaultState.step]
      dsimp only
      cases hsel : s.db.apiKeyVault.select (keyOf u p) with
      | none =>
          rw [serve_getKey_none env hsel]
          exact hrep
      | some row =>
          obtain ⟨-, -, -, held, -, hc⟩ := hrep.select_some hsel
          obtain ⟨hanswer, htable⟩ := serve_getKey_some env hsel hc.2.2
          rw [hanswer, htable]
          exact hrep

theorem represents_run (hrep : Represents env s.db.apiKeyVault s.map) (calls : List Call) :
    Represents env (s.run env calls).db.apiKeyVault (s.run env calls).map := by
  induction calls generalizing s with
  | nil => exact hrep
  | cons call calls ih => exact ih (represents_step hrep call)

-- ============================================================================
-- What the calls answer
-- ============================================================================

theorem getKey_of_represents (hrep : Represents env s.db.apiKeyVault s.map) (u : ℕ) (p : String) :
    (serve env (.getKeyForRuntime u p) s.db).1 =
      match s.map u p with
      | some held => .ok (.secret held.secret)
      | none => .error (.http 404 "Provider key not found") := by
  cases hsel : s.db.apiKeyVault.select (keyOf u p) with
  | none => rw [serve_getKey_none env hsel, hrep.select_none hsel]
  | some row =>
      obtain ⟨-, -, -, held, hm, hc⟩ := hrep.select_some hsel
      rw [(serve_getKey_some env hsel hc.2.2).1, hm]

/-- What `list_keys` has to show of a map: every provider once, with the number and the end
    of the secret. -/
structure Lists (m : KeyMap) (u : ℕ) (rows : List (Stored ApiKeyVault)) : Prop where
  nodup : (rows.map fun r => r.val.provider).Nodup
  complete : ∀ p, p ∈ rows.map (fun r => r.val.provider) ↔ (m u p).isSome
  shown : ∀ r ∈ rows, ∃ h, m u r.val.provider = some h ∧ r.id = h.id ∧
    r.val.keyLast4 = lastChars 4 h.secret

theorem listKeys_of_represents (hrep : Represents env s.db.apiKeyVault s.map) (u : ℕ) :
    ∃ rows, (serve env (.listKeys u) s.db).1 = .ok (.keys rows) ∧ Lists s.map u rows := by
  let own := s.db.apiKeyVault.rows.filter fun r => r.val.userId = u
  let sorted := own.mergeSort fun r r' => env.collate r.val.provider r'.val.provider
  have hperm : sorted.Perm own := List.mergeSort_perm own _
  have hown : ∀ r, r ∈ sorted ↔ r ∈ s.db.apiKeyVault.rows ∧ r.val.userId = u := by
    intro r
    rw [hperm.mem_iff, List.mem_filter, decide_eq_true_iff]
  refine ⟨sorted, congrArg Prod.fst (serve_listKeys env), ?_, ?_, ?_⟩
  · rw [(hperm.map _).nodup_iff]
    have hrows : own.Nodup := (List.Nodup.of_map _ s.db.apiKeyVault.nodup).filter _
    refine hrows.map_on ?_
    intro r hr r' hr' hp
    rw [← hperm.mem_iff, hown] at hr hr'
    exact hrep.one r hr.1 r' hr'.1 (hr.2.trans hr'.2.symm) hp
  · intro p
    rw [List.mem_map, Option.isSome_iff_exists]
    constructor
    · rintro ⟨r, hr, rfl⟩
      obtain ⟨hr, hu⟩ := (hown r).mp hr
      obtain ⟨h, hm, -⟩ := hrep.carried r hr
      exact ⟨h, by rw [← hu, hm]⟩
    · rintro ⟨h, hm⟩
      obtain ⟨r, hr, hru, hrp⟩ := hrep.stored u p h hm
      exact ⟨r, (hown r).mpr ⟨hr, hru⟩, hrp⟩
  · intro r hr
    obtain ⟨hr, hu⟩ := (hown r).mp hr
    obtain ⟨h, hm, hc⟩ := hrep.carried r hr
    exact ⟨h, by rw [← hu, hm], hc.1.symm, hc.2.1⟩

theorem deleteKey_of_represents (hrep : Represents env s.db.apiKeyVault s.map) (u : ℕ) (k : ℤ) :
    ((∃ p h, s.map u p = some h ∧ (h.id : ℤ) = k) →
      (serve env (.deleteKey u k) s.db).1 = .ok .deleted) ∧
    ((∀ p h, s.map u p = some h → (h.id : ℤ) ≠ k) →
      (serve env (.deleteKey u k) s.db).1 = .error (.http 404 "Key not found")) := by
  rcases serve_deleteKey hrep u k with ⟨row, hr, hid, hu, hanswer, -⟩ | ⟨hnone, hserve⟩
  · refine ⟨fun _ => hanswer, fun hnone => ?_⟩
    obtain ⟨h, hm, hc⟩ := hrep.carried row hr
    rw [hu] at hm
    exact absurd (by rw [hc.1, hid]) (hnone _ h hm)
  · refine ⟨fun ⟨p, h, hm, hk⟩ => absurd hk (hnone p h hm), fun _ => ?_⟩
    rw [hserve]

theorem upsertKey_stores (draws : Vault.Draws) (u : ℕ) (p apiKey : String) :
    ∃ k, (s.step env (.upsertKey draws u p apiKey)).map = s.map.set u p ⟨k, apiKey⟩ := by
  rw [VaultState.step]
  dsimp only
  cases hsel : s.db.apiKeyVault.select (keyOf u p) with
  | none =>
      obtain ⟨row, -, hanswer, -⟩ := serve_upsertKey_new env draws apiKey hsel
      rw [hanswer]
      exact ⟨_, rfl⟩
  | some row =>
      obtain ⟨f, -, hanswer, -⟩ := serve_upsertKey_old env draws apiKey hsel
      rw [hanswer]
      exact ⟨_, rfl⟩

/-- The rows of the other users are left as they are. -/
theorem rows_step_other (hrep : Represents env s.db.apiKeyVault s.map) {call : Call} {u : ℕ}
    (hu : u ≠ call.userId) {r : Stored ApiKeyVault} (hr : r.val.userId = u) :
    r ∈ (s.step env call).db.apiKeyVault.rows ↔ r ∈ s.db.apiKeyVault.rows := by
  cases call with
  | upsertKey draws u' p apiKey =>
      rw [VaultState.step]
      dsimp only
      cases hsel : s.db.apiKeyVault.select (keyOf u' p) with
      | none =>
          obtain ⟨row, hrow, -, htable⟩ := serve_upsertKey_new env draws apiKey hsel
          rw [htable, Table.mem_insert]
          refine ⟨fun h => h.resolve_right ?_, Or.inl⟩
          rintro rfl
          rw [hrow] at hr
          exact hu hr.symm
      | some row =>
          obtain ⟨f, hf, -, htable⟩ := serve_upsertKey_old env draws apiKey hsel
          obtain ⟨hrow, hru, -, -⟩ := hrep.select_some hsel
          rw [htable, Table.mem_update]
          constructor
          · rintro (⟨h, -⟩ | ⟨r', hr', hid, rfl⟩)
            · exact h
            · rw [Table.eq_of_id hr' hrow hid, hf] at hr
              exact absurd (hr.symm.trans hru) hu
          · intro h
            refine Or.inl ⟨h, fun hid => hu ?_⟩
            rw [← hr, Table.eq_of_id h hrow hid]
            exact hru
  | listKeys u' => exact Iff.rfl
  | deleteKey u' k =>
      rw [VaultState.step]
      dsimp only
      rcases serve_deleteKey hrep u' k with ⟨row, hrow, -, hru, -, htable⟩ | ⟨-, hserve⟩
      · rw [htable, Table.mem_delete]
        refine ⟨And.left, fun h => ⟨h, fun hid => hu ?_⟩⟩
        rw [← hr, Table.eq_of_id h hrow hid]
        exact hru
      · rw [hserve]
  | getKeyForRuntime u' p =>
      rw [VaultState.step]
      dsimp only
      cases hsel : s.db.apiKeyVault.select (keyOf u' p) with
      | none => rw [serve_getKey_none env hsel]
      | some row =>
          obtain ⟨-, -, -, held, -, hc⟩ := hrep.select_some hsel
          rw [(serve_getKey_some env hsel hc.2.2).2]

end Steps

/-- After any calls on a vault that was empty at first, each call answers as the map says,
    and leaves what other users have stored. -/
theorem vault_is_map (env : Vaulting) (db : Tables) (hempty : db.apiKeyVault.rows = [])
    (calls : List Call) :
    let s := (VaultState.start db).run env calls
    (∀ u p, (serve env (.getKeyForRuntime u p) s.db).1 =
      match s.map u p with
      | some held => .ok (.secret held.secret)
      | none => .error (.http 404 "Provider key not found")) ∧
    (∀ u, ∃ rows, (serve env (.listKeys u) s.db).1 = .ok (.keys rows) ∧ Lists s.map u rows) ∧
    (∀ draws u p apiKey, ∃ k,
      (s.step env (.upsertKey draws u p apiKey)).map = s.map.set u p ⟨k, apiKey⟩) ∧
    (∀ u k,
      ((∃ p h, s.map u p = some h ∧ (h.id : ℤ) = k) →
        (serve env (.deleteKey u k) s.db).1 = .ok .deleted) ∧
      ((∀ p h, s.map u p = some h → (h.id : ℤ) ≠ k) →
        (serve env (.deleteKey u k) s.db).1 = .error (.http 404 "Key not found"))) ∧
    (∀ call u, u ≠ call.userId →
      (∀ p, (s.step env call).map u p = s.map u p) ∧
      ∀ r, r.val.userId = u →
        (r ∈ (s.step env call).db.apiKeyVault.rows ↔ r ∈ s.db.apiKeyVault.rows)) := by
  intro s
  have hrep : Represents env s.db.apiKeyVault s.map :=
    represents_run (s := VaultState.start db) (Represents.empty hempty) calls
  exact ⟨getKey_of_represents hrep, listKeys_of_represents hrep, upsertKey_stores,
    deleteKey_of_represents hrep,
    fun call u hu => ⟨s.map.after_other hu _, fun r hr => rows_step_other hrep hu hr⟩⟩

/-- A cipher that puts the key and the nonce in front, and asks for both. -/
def taggedAes : Vault.AesGcm where
  encrypt key nonce data := key ++ nonce ++ data
  decrypt key nonce c :=
    if c.take (key ++ nonce).length = key ++ nonce then some (c.drop (key ++ nonce).length)
    else none
  decrypt_encrypt data _ _ := by rw [List.take_left, if_pos rfl, List.drop_left]

def taggedVault : Vaulting where
  aes := taggedAes
  encryptionMasterKey := "AAAAAAAAAAAAAAAAAAAAAAAAAAAAAAAAAAAAAAAAAAA="
  collate p p' := p ≤ p'

def noTables : Tables := ⟨Table.empty, Table.empty, Table.empty, Table.empty⟩

def zeroDraws : Vault.Draws where
  dek := ⟨List.replicate 32 0, List.length_replicate⟩
  dataNonce := ⟨List.replicate 12 0, List.length_replicate⟩
  dekNonce := ⟨List.replicate 12 0, List.length_replicate⟩

/-- Overwritten by the same user, stored and deleted by another one. -/
theorem vault_is_map_overwritten :
    (serve taggedVault (.getKeyForRuntime 1 "newsapi")
      ((VaultState.start noTables).run taggedVault
        [.upsertKey zeroDraws 1 "newsapi" "old-key-987654",
          .upsertKey zeroDraws 2 "newsapi" "their-key-5555",
          .upsertKey zeroDraws 1 "newsapi" "news-key-123456",
          .deleteKey 2 2]).db).1 = .ok (.secret "news-key-123456") :=
  (vault_is_map taggedVault noTables rfl _).1 1 "newsapi"

end Mtrader.Accounts
