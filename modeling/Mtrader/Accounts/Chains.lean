/-
  Mtrader.Accounts.Chains

  The chains of refresh tokens: a login starts one, and a refresh adds the row that
  takes the place of the row whose token was presented.  Calls come one at a time, and
  their commits succeed.
-/

import Mtrader.Accounts.Plans

namespace Mtrader.Accounts

open Py Orm

-- ============================================================================
-- Histories
-- ============================================================================

inductive AuthCall
  | login (draws : Draws) (payload : LoginRequest) (ip : Option String)
  | refreshTokens (draws : Draws) (refreshToken deviceFingerprint : String) (ip : Option String)

def AuthCall.draws : AuthCall → Draws
  | login draws _ _ => draws
  | refreshTokens draws _ _ _ => draws

variable (F : Type) [Prims F] (rt : Runtime)

def AuthCall.code : AuthCall → Service TokenPair
  | login draws payload ip => Accounts.login rt draws payload ip
  | refreshTokens draws token device ip => Accounts.refreshTokens F rt draws token device ip

/-- A call in a session of its own, with every commit succeeding. -/
def AuthCall.serve (call : AuthCall) (db : Tables) : Except Failure TokenPair × Tables :=
  (call.code F rt).run (fun _ => false) db

/-- A call that has been served, with the tables before and after it. -/
structure Event where
  before : Tables
  call : AuthCall
  answer : Except Failure TokenPair
  after : Tables

/-- The refresh tokens that have been given out, latest first. -/
def issued (h : List Event) : List String :=
  h.filterMap fun e => e.answer.toOption.map TokenPair.refreshToken

/-- What may have happened since `db₀`, latest event first; `create_refresh_token` never
    gives a token that has been given out. -/
inductive Run (db₀ : Tables) : List Event → Tables → Prop
  | start : Run db₀ [] db₀
  | call {h : List Event} {db : Tables} (hrun : Run db₀ h db) (call : AuthCall)
      (hfresh : call.draws.refreshToken ∉ issued h) :
      Run db₀ (⟨db, call, (call.serve F rt db).1, (call.serve F rt db).2⟩ :: h)
        (call.serve F rt db).2

/-- The login that a row goes back to: the number of its row, and its device. -/
structure Origin where
  login : ℕ
  device : String

/-- The event adds the row with the number `k`. -/
def Event.Adds (e : Event) (k : ℕ) : Prop :=
  k ∈ e.after.refreshTokens.rows.map Stored.id ∧ k ∉ e.before.refreshTokens.rows.map Stored.id

instance (e : Event) (k : ℕ) : Decidable (e.Adds k) := inferInstanceAs (Decidable (_ ∧ _))

/-- Where the row with the number `k` comes from: a login adds a row of its own, a refresh
    one that descends from the row with the token that was presented. -/
def origin : List Event → ℕ → Option Origin
  | [], _ => none
  | e :: h, k =>
      if e.Adds k then
        match e.call with
        | .login _ payload _ => some ⟨k, payload.deviceFingerprint⟩
        | .refreshTokens _ token _ _ =>
            (e.before.refreshTokens.select
              fun r => r.val.tokenHash = rt.hashRefreshToken token).bind fun r => origin h r.id
      else origin h k

-- ============================================================================
-- What a call does to the rows
-- ============================================================================

/-- `rt.revoked = True`, in the table. -/
def revokeIn (t : Table RefreshToken) (k : ℕ) : Table RefreshToken :=
  t.update k fun row => { row with revoked := true }

/-- What one call may do to `refresh_tokens`. -/
inductive Effect (t : Table RefreshToken) (call : AuthCall) :
    Except Failure TokenPair → Table RefreshToken → Prop
  /-- It raises and leaves them. -/
  | refused (e : Failure) : Effect t call (.error e) t
  /-- It raises and revokes a row. -/
  | marked (e : Failure) (k : ℕ) : Effect t call (.error e) (revokeIn t k)
  /-- A login adds a row. -/
  | loggedIn (draws : Draws) (payload : LoginRequest) (ip : Option String) (pair : TokenPair)
      (row : RefreshToken) (hcall : call = .login draws payload ip)
      (hpair : pair.refreshToken = draws.refreshToken)
      (hhash : row.tokenHash = rt.hashRefreshToken draws.refreshToken)
      (hdevice : row.deviceFingerprint = payload.deviceFingerprint) :
      Effect t call (.ok pair) (t.insert row)
  /-- A refresh revokes the row whose token was presented and adds another. -/
  | rotated (draws : Draws) (token device : String) (ip : Option String) (pair : TokenPair)
      (used : Stored RefreshToken) (row : RefreshToken)
      (hcall : call = .refreshTokens draws token device ip)
      (hpair : pair.refreshToken = draws.refreshToken)
      (hused : used ∈ t.rows) (hunrevoked : used.val.revoked = false)
      (htoken : used.val.tokenHash = rt.hashRefreshToken token)
      (hdevice : used.val.deviceFingerprint = device)
      (hhash : row.tokenHash = rt.hashRefreshToken draws.refreshToken)
      (hdevice' : row.deviceFingerprint = device) :
      Effect t call (.ok pair) ((revokeIn t used.id).insert row)

section Effects

variable {F rt} {db : Tables} {draws : Draws} {ip : Option String}

theorem run_refused {α : Type} {x : Service α} (h : Refused x db) :
    ∃ e, x.run (fun _ => false) db = (.error e, db) := by
  obtain ⟨e, -, hfollows⟩ := h
  exact ⟨e, hfollows _⟩

theorem run_marked {α : Type} {x : Service α} {row : Stored RefreshToken} (h : Marked x db row) :
    ∃ e, x.run (fun _ => false) db = (.error e, db.revoke row.id) := by
  obtain ⟨e, -, hfollows⟩ := h
  exact ⟨e, hfollows _⟩

theorem run_recorded {α : Type} {x : Service α} {change : Tables → Tables} {a : α}
    (h : Recorded x db change a) :
    ∃ entry, x.run (fun _ => false) db = (.ok a, (change db).addAudit entry) := by
  obtain ⟨entry, hfollows⟩ := h
  exact ⟨entry, hfollows _⟩

theorem login_effect (payload : LoginRequest) :
    Effect rt db.refreshTokens (.login draws payload ip)
      ((AuthCall.login draws payload ip).serve F rt db).1
      ((AuthCall.login draws payload ip).serve F rt db).2.refreshTokens := by
  show Effect rt _ _ ((login rt draws payload ip).run (fun _ => false) db).1
    ((login rt draws payload ip).run (fun _ => false) db).2.refreshTokens
  by_cases hgood : ∃ user ttlDays, Authenticated rt db payload user ∧
      rt.refreshTokenTtlDays = some ttlDays
  · obtain ⟨user, ttlDays, hauth, hdays⟩ := hgood
    obtain ⟨a, ha, hrecorded⟩ := login_recorded draws ip hauth hdays
    obtain ⟨entry, hrun⟩ := run_recorded hrecorded
    rw [hrun]
    exact .loggedIn draws payload ip a _ rfl ha rfl rfl
  · obtain ⟨e, hrun⟩ := run_refused (login_refused draws ip
      fun user ttlDays hauth hdays => hgood ⟨user, ttlDays, hauth, hdays⟩)
    rw [hrun]
    exact .refused e

theorem matching_eq_true {token : String} {r : Stored RefreshToken} :
    matching rt token r = true ↔
      r.val.tokenHash = rt.hashRefreshToken token ∧ r.val.revoked = false := by
  rw [matching, Bool.and_eq_true, decide_eq_true_iff, Bool.not_eq_true']

theorem refreshTokens_effect (token device : String) :
    Effect rt db.refreshTokens (.refreshTokens draws token device ip)
      ((AuthCall.refreshTokens draws token device ip).serve F rt db).1
      ((AuthCall.refreshTokens draws token device ip).serve F rt db).2.refreshTokens := by
  show Effect rt _ _ ((refreshTokens F rt draws token device ip).run (fun _ => false) db).1
    ((refreshTokens F rt draws token device ip).run (fun _ => false) db).2.refreshTokens
  by_cases hgood : ∃ row, db.refreshTokens.select (matching rt token) = some row ∧
      Refreshable F rt draws device db row
  · obtain ⟨row, hsel, hrow⟩ := hgood
    obtain ⟨user, huser⟩ := Option.isSome_iff_exists.mp hrow.user
    obtain ⟨ttlDays, hdays⟩ := Option.isSome_iff_exists.mp hrow.ttl
    obtain ⟨a, ha, hrecorded⟩ := refreshTokens_recorded ip hsel hrow huser hdays
    obtain ⟨entry, hrun⟩ := run_recorded hrecorded
    obtain ⟨hmem, hmatching⟩ := Table.select_eq_some hsel
    obtain ⟨htoken, hunrevoked⟩ := matching_eq_true.mp hmatching
    rw [hrun]
    exact .rotated draws token device ip a row _ rfl ha hmem hunrevoked htoken hrow.device rfl rfl
  · have hbad : ∀ row, db.refreshTokens.select (matching rt token) = some row →
        ¬ Refreshable F rt draws device db row := fun row hsel hrow => hgood ⟨row, hsel, hrow⟩
    have hcases : Refused (refreshTokens F rt draws token device ip) db ∨
        ∃ row, db.refreshTokens.select (matching rt token) = some row ∧
          Marked (refreshTokens F rt draws token device ip) db row := refreshTokens_refused hbad
    rcases hcases with hrefused | ⟨row, -, hmarked⟩
    · obtain ⟨e, hrun⟩ := run_refused hrefused
      rw [hrun]
      exact .refused e
    · obtain ⟨e, hrun⟩ := run_marked hmarked
      rw [hrun]
      exact .marked e row.id

theorem serve_effect (call : AuthCall) (db : Tables) :
    Effect rt db.refreshTokens call (call.serve F rt db).1
      (call.serve F rt db).2.refreshTokens := by
  cases call with
  | login draws payload ip => exact login_effect payload
  | refreshTokens draws token device ip => exact refreshTokens_effect token device

end Effects

-- ============================================================================
-- The invariant
-- ============================================================================

/-- Every row has a token of its own and goes back to a login, and of the rows that go back
    to one login at most one is unrevoked. -/
structure ChainInv (h : List Event) (t : Table RefreshToken) : Prop where
  hashes : ∀ r ∈ t.rows, ∀ r' ∈ t.rows, r.val.tokenHash = r'.val.tokenHash → r = r'
  given : ∀ r ∈ t.rows, ∃ token ∈ issued h, r.val.tokenHash = rt.hashRefreshToken token
  origins : ∀ r ∈ t.rows, ∃ o, origin rt h r.id = some o ∧ o.login < t.seq ∧
    r.val.deviceFingerprint = o.device
  single : ∀ r ∈ t.rows, ∀ r' ∈ t.rows, ∀ o o', origin rt h r.id = some o →
    origin rt h r'.id = some o' → o.login = o'.login → r.val.revoked = false →
    r'.val.revoked = false → r = r'

section Invariant

variable {F rt} {h : List Event} {t : Table RefreshToken} {e : Event}

/-- A revoked row differs from the old one in nothing else. -/
theorem mem_revokeIn {k : ℕ} {r : Stored RefreshToken} (hr : r ∈ (revokeIn t k).rows) :
    ∃ r₀ ∈ t.rows, r₀.id = r.id ∧ r₀.val.tokenHash = r.val.tokenHash ∧
      r₀.val.deviceFingerprint = r.val.deviceFingerprint ∧
      (r.val.revoked = false → r₀ = r ∧ r.id ≠ k) := by
  rcases Table.mem_update.mp hr with ⟨hr, hne⟩ | ⟨r₀, hr₀, hid, rfl⟩
  · exact ⟨r, hr, rfl, rfl, rfl, fun _ => ⟨rfl, hne⟩⟩
  · exact ⟨r₀, hr₀, hid, rfl, rfl, fun hrev => by cases hrev⟩

theorem ChainInv.revoke (hinv : ChainInv rt h t) (k : ℕ) : ChainInv rt h (revokeIn t k) where
  hashes := by
    intro r hr r' hr' heq
    obtain ⟨r₀, hr₀, hid, hhash, -, -⟩ := mem_revokeIn hr
    obtain ⟨r₀', hr₀', hid', hhash', -, -⟩ := mem_revokeIn hr'
    have hsame : r₀ = r₀' := hinv.hashes r₀ hr₀ r₀' hr₀' (by rw [hhash, hhash', heq])
    exact Table.eq_of_id hr hr' (by rw [← hid, ← hid', hsame])
  given := by
    intro r hr
    obtain ⟨r₀, hr₀, -, hhash, -, -⟩ := mem_revokeIn hr
    rw [← hhash]
    exact hinv.given r₀ hr₀
  origins := by
    intro r hr
    obtain ⟨r₀, hr₀, hid, -, hdevice, -⟩ := mem_revokeIn hr
    rw [← hid, ← hdevice]
    exact hinv.origins r₀ hr₀
  single := by
    intro r hr r' hr' o o' ho ho' hlogin hrev hrev'
    obtain ⟨r₀, hr₀, -, -, -, hkept⟩ := mem_revokeIn hr
    obtain ⟨r₀', hr₀', -, -, -, hkept'⟩ := mem_revokeIn hr'
    obtain ⟨rfl, -⟩ := hkept hrev
    obtain ⟨rfl, -⟩ := hkept' hrev'
    exact hinv.single r₀ hr₀ r₀' hr₀' o o' ho ho' hlogin hrev hrev'

theorem origin_of_not_adds {k : ℕ} (hadds : ¬ e.Adds k) : origin rt (e :: h) k = origin rt h k := by
  rw [origin, if_neg hadds]

/-- An event that raises and adds no row. -/
theorem ChainInv.quiet (hinv : ChainInv rt h t) (hadds : ∀ k, ¬ e.Adds k) {x : Failure}
    (hanswer : e.answer = .error x) : ChainInv rt (e :: h) t where
  hashes := hinv.hashes
  given := by
    have hissued : issued (e :: h) = issued h := by
      rw [issued, List.filterMap_cons, hanswer]
      rfl
    rw [hissued]
    exact hinv.given
  origins := by
    intro r hr
    rw [origin_of_not_adds (hadds r.id)]
    exact hinv.origins r hr
  single := by
    intro r hr r' hr' o o' ho ho'
    rw [origin_of_not_adds (hadds r.id)] at ho
    rw [origin_of_not_adds (hadds r'.id)] at ho'
    exact hinv.single r hr r' hr' o o' ho ho'

/-- An event that gives out a fresh token and adds its row, with no other unrevoked row of
    the same login left. -/
theorem ChainInv.insert (hinj : Function.Injective rt.hashRefreshToken) (hinv : ChainInv rt h t)
    (hadds : ∀ k, e.Adds k ↔ k = t.seq) {pair : TokenPair} (hanswer : e.answer = .ok pair)
    (hfresh : pair.refreshToken ∉ issued h) {row : RefreshToken}
    (hhash : row.tokenHash = rt.hashRefreshToken pair.refreshToken) {o : Origin}
    (horigin : origin rt (e :: h) t.seq = some o) (hlogin : o.login ≤ t.seq)
    (hdevice : row.deviceFingerprint = o.device)
    (halone : ∀ r ∈ t.rows, ∀ o', origin rt h r.id = some o' → o'.login = o.login →
      r.val.revoked = true) :
    ChainInv rt (e :: h) (t.insert row) := by
  have hissued : issued (e :: h) = pair.refreshToken :: issued h := by
    rw [issued, List.filterMap_cons, hanswer]
    rfl
  have hold : ∀ r ∈ t.rows, origin rt (e :: h) r.id = origin rt h r.id := by
    intro r hr
    have hlt := t.below r hr
    exact origin_of_not_adds fun hadd => by
      rw [hadds] at hadd
      omega
  have hnew : ∀ r ∈ t.rows, r.val.tokenHash ≠ row.tokenHash := by
    intro r hr heq
    obtain ⟨token, htoken, hr'⟩ := hinv.given r hr
    rw [hr', hhash] at heq
    exact hfresh (hinj heq ▸ htoken)
  refine ⟨?_, ?_, ?_, ?_⟩
  · intro r hr r' hr' heq
    rcases Table.mem_insert.mp hr with hr | rfl
    · rcases Table.mem_insert.mp hr' with hr' | rfl
      · exact hinv.hashes r hr r' hr' heq
      · exact absurd heq (hnew r hr)
    · rcases Table.mem_insert.mp hr' with hr' | rfl
      · exact absurd heq.symm (hnew r' hr')
      · rfl
  · intro r hr
    rw [hissued]
    rcases Table.mem_insert.mp hr with hr | rfl
    · obtain ⟨token, htoken, heq⟩ := hinv.given r hr
      exact ⟨token, List.mem_cons_of_mem _ htoken, heq⟩
    · exact ⟨pair.refreshToken, List.mem_cons_self, hhash⟩
  · intro r hr
    rcases Table.mem_insert.mp hr with hr | rfl
    · obtain ⟨o', ho', hlt, hdev⟩ := hinv.origins r hr
      exact ⟨o', by rw [hold r hr, ho'], Nat.lt_succ_of_lt hlt, hdev⟩
    · exact ⟨o, horigin, Nat.lt_succ_of_le hlogin, hdevice⟩
  · intro r hr r' hr' o₁ o₂ ho₁ ho₂ heq hrev hrev'
    rcases Table.mem_insert.mp hr with hr | rfl
    · rw [hold r hr] at ho₁
      rcases Table.mem_insert.mp hr' with hr' | rfl
      · rw [hold r' hr'] at ho₂
        exact hinv.single r hr r' hr' o₁ o₂ ho₁ ho₂ heq hrev hrev'
      · rw [horigin] at ho₂
        cases ho₂
        rw [halone r hr o₁ ho₁ heq] at hrev
        cases hrev
    · rw [horigin] at ho₁
      cases ho₁
      rcases Table.mem_insert.mp hr' with hr' | rfl
      · rw [hold r' hr'] at ho₂
        rw [halone r' hr' o₂ ho₂ heq.symm] at hrev'
        cases hrev'
      · rfl

/-- An event whose tables differ by one new row adds that row. -/
theorem adds_insert_iff {t' : Table RefreshToken} {row : RefreshToken}
    (hids : t'.rows.map Stored.id = t.rows.map Stored.id) (hseq : t'.seq = t.seq)
    (hbefore : e.before.refreshTokens = t) (hafter : e.after.refreshTokens = t'.insert row)
    (k : ℕ) : e.Adds k ↔ k = t.seq := by
  have hnew : t.seq ∉ t.rows.map Stored.id := by
    rw [List.mem_map]
    rintro ⟨r, hr, hid⟩
    have hlt := t.below r hr
    omega
  rw [Event.Adds, hbefore, hafter, Table.insert, List.map_append, hids, hseq, List.mem_append,
    List.map_singleton, List.mem_singleton]
  constructor
  · rintro ⟨hk | hk, hnot⟩
    · exact absurd hk hnot
    · exact hk
  · rintro rfl
    exact ⟨Or.inr rfl, hnew⟩

theorem not_adds_of_ids {k : ℕ} (hids : e.after.refreshTokens.rows.map Stored.id =
    e.before.refreshTokens.rows.map Stored.id) : ¬ e.Adds k := by
  rintro ⟨hafter, hbefore⟩
  rw [hids] at hafter
  exact hbefore hafter

/-- One call keeps the invariant. -/
theorem ChainInv.step (hinj : Function.Injective rt.hashRefreshToken)
    (hinv : ChainInv rt h e.before.refreshTokens)
    (hfresh : e.call.draws.refreshToken ∉ issued h)
    (heffect : Effect rt e.before.refreshTokens e.call e.answer e.after.refreshTokens) :
    ChainInv rt (e :: h) e.after.refreshTokens := by
  obtain ⟨before, call, answer, after⟩ := e
  dsimp only at hinv hfresh heffect ⊢
  generalize hafter : after.refreshTokens = t' at heffect ⊢
  cases heffect with
  | refused x =>
      exact hinv.quiet (fun k => not_adds_of_ids (by rw [hafter])) rfl
  | marked x k =>
      refine (hinv.revoke k).quiet (fun k => not_adds_of_ids ?_) rfl
      rw [hafter]
      exact Table.ids_update
  | loggedIn draws payload ip pair row hcall hpair hhash hdevice =>
      have hadds := adds_insert_iff (e := ⟨before, call, .ok pair, after⟩) rfl rfl rfl hafter
      rw [hcall] at hfresh
      refine hinv.insert hinj hadds rfl (hpair ▸ hfresh) (hpair ▸ hhash)
        (o := ⟨before.refreshTokens.seq, payload.deviceFingerprint⟩) ?_ le_rfl hdevice ?_
      · rw [origin, if_pos ((hadds _).mpr rfl), hcall]
      · intro r hr o' ho' hlogin
        obtain ⟨o₁, ho₁, hlt, -⟩ := hinv.origins r hr
        rw [ho'] at ho₁
        cases ho₁
        exact absurd hlogin (Nat.ne_of_lt hlt)
  | rotated draws token device ip pair used row hcall hpair hused hunrevoked htoken hdevice hhash
      hdevice' =>
      have hadds := adds_insert_iff (e := ⟨before, call, .ok pair, after⟩) Table.ids_update rfl rfl
        hafter
      obtain ⟨o, ho, hlt, hodevice⟩ := hinv.origins used hused
      rw [hcall] at hfresh
      refine (hinv.revoke used.id).insert hinj hadds rfl (hpair ▸ hfresh) (hpair ▸ hhash) (o := o)
        ?_ (Nat.le_of_lt hlt) (by rw [hdevice', ← hdevice, hodevice]) ?_
      · -- the row that was presented is the only one with its token
        have hsel : before.refreshTokens.select
            (fun r => r.val.tokenHash = rt.hashRefreshToken token) = some used := by
          cases hsel : before.refreshTokens.select
              (fun r => r.val.tokenHash = rt.hashRefreshToken token) with
          | none =>
              have hfalse := Table.select_eq_none.mp hsel used hused
              rw [decide_eq_true htoken] at hfalse
              cases hfalse
          | some r =>
              obtain ⟨hr, hrtoken⟩ := Table.select_eq_some hsel
              rw [decide_eq_true_iff] at hrtoken
              rw [hinv.hashes r hr used hused (hrtoken.trans htoken.symm)]
        have hadd : (⟨before, call, .ok pair, after⟩ : Event).Adds
            (revokeIn before.refreshTokens used.id).seq := (hadds _).mpr rfl
        rw [origin, if_pos hadd, hcall]
        dsimp only
        rw [hsel]
        exact ho
      · intro r hr o' ho' hlogin
        cases hrev : r.val.revoked with
        | true => rfl
        | false =>
            obtain ⟨r₀, hr₀, -, -, -, hkept⟩ := mem_revokeIn hr
            obtain ⟨rfl, hne⟩ := hkept hrev
            have hsame := hinv.single r₀ hr₀ used hused o' o ho' ho hlogin hrev hunrevoked
            exact absurd (congrArg Stored.id hsame) hne

theorem ChainInv.empty (ht : t.rows = []) : ChainInv rt [] t := by
  refine ⟨?_, ?_, ?_, ?_⟩ <;>
    (intro r hr
     rw [ht] at hr
     cases hr)

theorem chainInv_of_run {db₀ db : Tables} (hinj : Function.Injective rt.hashRefreshToken)
    (hempty : db₀.refreshTokens.rows = []) (hrun : Run F rt db₀ h db) :
    ChainInv rt h db.refreshTokens := by
  induction hrun with
  | start => exact ChainInv.empty hempty
  | call hrun call hfresh ih => exact ChainInv.step hinj ih hfresh (serve_effect call _)

-- ============================================================================
-- What holds of one call
-- ============================================================================

theorem revoked_revokeIn {k : ℕ} {r : Stored RefreshToken} (hr : r ∈ t.rows)
    (hrev : r.val.revoked = true) :
    ∃ r' ∈ (revokeIn t k).rows, r'.id = r.id ∧ r'.val.revoked = true := by
  by_cases hk : r.id = k
  · exact ⟨⟨k, { r.val with revoked := true }⟩, Table.mem_update.mpr (Or.inr ⟨r, hr, hk, rfl⟩),
      hk.symm, rfl⟩
  · exact ⟨r, Table.mem_update.mpr (Or.inl ⟨hr, hk⟩), rfl, hrev⟩

/-- A revoked row stays one. -/
theorem Effect.revoked_stays {call : AuthCall} {answer : Except Failure TokenPair}
    {t' : Table RefreshToken} (heffect : Effect rt t call answer t') {r : Stored RefreshToken}
    (hr : r ∈ t.rows) (hrev : r.val.revoked = true) :
    ∃ r' ∈ t'.rows, r'.id = r.id ∧ r'.val.revoked = true := by
  cases heffect with
  | refused x => exact ⟨r, hr, rfl, hrev⟩
  | marked x k => exact revoked_revokeIn hr hrev
  | loggedIn draws payload ip pair row => exact ⟨r, Table.mem_insert.mpr (Or.inl hr), rfl, hrev⟩
  | rotated draws token device ip pair used row =>
      obtain ⟨r', hr', hid, hrev'⟩ := revoked_revokeIn (k := used.id) hr hrev
      exact ⟨r', Table.mem_insert.mpr (Or.inl hr'), hid, hrev'⟩

/-- A call that raises adds no row. -/
theorem Effect.ids_of_error {call : AuthCall} {x : Failure} {t' : Table RefreshToken}
    (heffect : Effect rt t call (.error x) t') :
    t'.rows.map Stored.id = t.rows.map Stored.id := by
  cases heffect with
  | refused => rfl
  | marked => exact Table.ids_update

/-- A refresh that succeeds was given the token and the device of an unrevoked row. -/
theorem Effect.used_of_ok {draws : Draws} {token device : String} {ip : Option String}
    {pair : TokenPair} {t' : Table RefreshToken}
    (heffect : Effect rt t (.refreshTokens draws token device ip) (.ok pair) t') :
    ∃ used ∈ t.rows, used.val.revoked = false ∧
      used.val.tokenHash = rt.hashRefreshToken token ∧ used.val.deviceFingerprint = device := by
  cases heffect with
  | loggedIn draws' payload ip' _ row hcall => cases hcall
  | rotated draws' token' device' ip' _ used row hcall hpair hused hunrevoked htoken hdevice =>
      cases hcall
      exact ⟨used, hused, hunrevoked, htoken, hdevice⟩

end Invariant

section Main

variable {h : List Event} {db₀ db : Tables}

/-- In every history that starts with no refresh tokens: of the rows of one login at most one
    is unrevoked; no call revives a revoked row; a refresh succeeds only for the unrevoked row
    of its login, and from the login's device; and a call that raises adds no row. -/
theorem one_unrevoked_per_login (hinj : Function.Injective rt.hashRefreshToken)
    (hempty : db₀.refreshTokens.rows = []) (hrun : Run F rt db₀ h db) :
    (∀ r ∈ db.refreshTokens.rows, ∃ o, origin rt h r.id = some o) ∧
    (∀ r ∈ db.refreshTokens.rows, ∀ r' ∈ db.refreshTokens.rows, ∀ o o',
      origin rt h r.id = some o → origin rt h r'.id = some o' → o.login = o'.login →
      r.val.revoked = false → r'.val.revoked = false → r = r') ∧
    ∀ call : AuthCall,
      (∀ r ∈ db.refreshTokens.rows, r.val.revoked = true →
        ∃ r' ∈ (call.serve F rt db).2.refreshTokens.rows, r'.id = r.id ∧ r'.val.revoked = true) ∧
      (∀ draws token device ip pair, call = .refreshTokens draws token device ip →
        (call.serve F rt db).1 = .ok pair →
        ∃ used ∈ db.refreshTokens.rows, used.val.revoked = false ∧
          used.val.tokenHash = rt.hashRefreshToken token ∧
          ∃ o, origin rt h used.id = some o ∧ o.device = device ∧
            ∀ r ∈ db.refreshTokens.rows, ∀ o', origin rt h r.id = some o' →
              o'.login = o.login → r ≠ used → r.val.revoked = true) ∧
      (∀ x, (call.serve F rt db).1 = .error x →
        (call.serve F rt db).2.refreshTokens.rows.map Stored.id =
          db.refreshTokens.rows.map Stored.id) := by
  have hinv : ChainInv rt h db.refreshTokens := chainInv_of_run hinj hempty hrun
  refine ⟨?_, hinv.single, fun call => ⟨?_, ?_, ?_⟩⟩
  · intro r hr
    obtain ⟨o, ho, -⟩ := hinv.origins r hr
    exact ⟨o, ho⟩
  · intro r hr hrev
    exact (serve_effect (F := F) call db).revoked_stays hr hrev
  · intro draws token device ip pair hcall hanswer
    have heffect : Effect rt db.refreshTokens call _ _ := serve_effect (F := F) call db
    rw [hanswer, hcall] at heffect
    obtain ⟨used, hused, hunrevoked, htoken, hdevice⟩ := heffect.used_of_ok
    obtain ⟨o, ho, -, hodevice⟩ := hinv.origins used hused
    refine ⟨used, hused, hunrevoked, htoken, o, ho, by rw [← hodevice, hdevice], ?_⟩
    intro r hr o' ho' hlogin hne
    cases hrev : r.val.revoked with
    | true => rfl
    | false => exact absurd (hinv.single r hr used hused o' o ho' ho hlogin hrev hunrevoked) hne
  · intro x hanswer
    have heffect : Effect rt db.refreshTokens call _ _ := serve_effect (F := F) call db
    rw [hanswer] at heffect
    exact heffect.ids_of_error

/-- A deployment with both settings, naive timestamps, and hashes that hide nothing. -/
def plainRuntime : Runtime where
  refreshTokenTtlDays := some 7
  inactivityTimeoutMinutes := some 30
  awareTimestamps := false
  lower := id
  verifyPassword password hash := password = hash
  hashRefreshToken := id

def drawsAt (now : Time) (refreshToken : String) : Draws where
  now := now
  stamp := now
  passwordHash := ""
  refreshToken := refreshToken
  accessToken subject role := subject ++ role

def oneUser : Tables :=
  ⟨Table.empty.insert ⟨"user@example.com", "ComplexPass123!", .user⟩, Table.empty, Table.empty,
    Table.empty⟩

def firstLogin : AuthCall :=
  .login (drawsAt 0 "first") ⟨"user@example.com", "ComplexPass123!", "device-abc-001"⟩ none

def firstRefresh : AuthCall :=
  .refreshTokens (drawsAt 60000000 "second") "first" "device-abc-001" none

/-- After a login and a refresh: two rows, of which the second alone is unrevoked. -/
theorem one_unrevoked_per_login_refreshed :
    let db := (firstLogin.serve ℚ plainRuntime oneUser).2
    let db' := (firstRefresh.serve ℚ plainRuntime db).2
    db'.refreshTokens.rows.map (fun r => r.val.revoked) = [true, false] ∧
    ∀ x, (firstRefresh.serve ℚ plainRuntime db').1 = .error x →
      (firstRefresh.serve ℚ plainRuntime db').2.refreshTokens.rows.map Stored.id =
        db'.refreshTokens.rows.map Stored.id := by
  intro db db'
  have hlogin : Run ℚ plainRuntime oneUser _ db := .call .start firstLogin (by decide +kernel)
  have hrefresh : Run ℚ plainRuntime oneUser _ db' :=
    .call hlogin firstRefresh (by decide +kernel)
  have hmain := one_unrevoked_per_login ℚ plainRuntime Function.injective_id rfl hrefresh
  exact ⟨by decide +kernel, (hmain.2.2 firstRefresh).2.2⟩

end Main

end Mtrader.Accounts
