/-
  Mtrader.Storage.Attempts

  What `_execute_retry` and the context managers of the repository do with the body
  they are given: which calls they add, how many connection errors an exhausted call
  has met, and what a body that secures something secures through them.
-/

import Mtrader.Storage.Repository

namespace Mtrader.Storage

open Coroutine Py Sql Mtrader.Execution

variable {F R : Type}

-- ============================================================================
-- Which calls are made
-- ============================================================================

section

variable {G : Type} {D : Discipline (PgOp.Ans (F := F)) PgExc G}

/-- What the wrappers call besides the body. -/
def PgOp.wraps : PgOp F → Bool
  | .acquire | .release | .begin | .commit | .rollback | .sleep _ => true
  | _ => false

theorem retryFrom_always {fn : RepoM F R} (hwraps : ∀ g (e : PgOp F), e.wraps → D.may g e)
    (hfn : fn.Always D) (lastExc : PgExc) (attempts : List ℕ) :
    (retryFrom fn lastExc attempts).Always D := by
  induction attempts generalizing lastExc with
  | nil => exact Prog.always_raise lastExc
  | cons attempt rest ih =>
      refine hfn.attempt.bind fun out => ?_
      cases out with
      | ok r => exact Prog.always_ret r
      | error exc =>
          simp only
          split
          next => exact (Prog.always_op fun g => hwraps g _ rfl).bind fun _ => ih exc
          next => exact Prog.always_raise exc

theorem transaction_always {body : RepoM F R} (hwraps : ∀ g (e : PgOp F), e.wraps → D.may g e)
    (hbody : body.Always D) : (transaction body).Always D := by
  refine (Prog.always_op fun g => hwraps g _ rfl).bind fun _ => ?_
  refine hbody.attempt.bind fun out => ?_
  cases out with
  | ok r => exact (Prog.always_op fun g => hwraps g _ rfl).bind fun _ => Prog.always_ret r
  | error x => exact (Prog.always_op fun g => hwraps g _ rfl).bind fun _ => Prog.always_raise x

/-- A call of the repository calls what its body calls, and the wrappers' own. -/
theorem executeRetry_always {body : RepoM F R} (hwraps : ∀ g (e : PgOp F), e.wraps → D.may g e)
    (hbody : body.Always D) (retries : ℕ) :
    (executeRetry (withConnection (transaction body)) retries).Always D := by
  refine retryFrom_always hwraps ?_ _ _
  refine (Prog.always_op fun g => hwraps g _ rfl).bind fun _ => ?_
  exact (transaction_always hwraps hbody).andFinally (Prog.always_op fun g => hwraps g _ rfl)

end

-- ============================================================================
-- Connection errors
-- ============================================================================

/-- How many errors that are retried a call has met; `none` once a sleep has raised,
    which it does not. -/
def errorCount (F : Type) : Discipline (PgOp.Ans (F := F)) PgExc (Option ℕ) where
  may _ _ := True
  next met
    | .sleep _, .error _ => none
    | _, .error x => if x.retried then met.map (· + 1) else met
    | _, .ok _ => met

/-- Since the count was `n`, an error that is retried was met if one is raised. -/
def MetSince (n : ℕ) (out : Except PgExc R) (met : Option ℕ) : Prop :=
  ∃ n', met = some n' ∧ n ≤ n' ∧ ∀ x, out = .error x → x.retried → n < n'

/-- A program raises an error that is retried only if it has met one. -/
def Meets (p : RepoM F R) : Prop := ∀ n, p.Obeys (errorCount F) (MetSince n) (some n)

/-- What was met later was met since. -/
theorem MetSince.mono {b n : ℕ} {out : Except PgExc R} {met : Option ℕ} (h : MetSince n out met)
    (hle : b ≤ n) : MetSince b out met := by
  obtain ⟨n', hmet, hle', herr⟩ := h
  exact ⟨n', hmet, hle.trans hle', fun x hx hretried => hle.trans_lt (herr x hx hretried)⟩

theorem Meets.since {p : RepoM F R} (h : Meets p) {b n : ℕ} (hle : b ≤ n) :
    p.Obeys (errorCount F) (MetSince b) (some n) :=
  (h n).mono fun _ _ hmet => hmet.mono hle

theorem Meets.ret (r : R) : Meets (.ret r : RepoM F R) := fun n => ⟨n, rfl, le_rfl, nofun⟩

/-- An error that is raised again. -/
theorem obeys_reraise {x : PgExc} {b n : ℕ} (hle : b ≤ n) (hx : x.retried → b < n) :
    (.raise x : RepoM F R).Obeys (errorCount F) (MetSince b) (some n) := by
  refine ⟨n, rfl, hle, fun y hy hretried => ?_⟩
  cases hy
  exact hx hretried

theorem Meets.python (r : Except Exc R) : Meets (python (F := F) r) := by
  intro n
  cases r with
  | ok r => exact Meets.ret r n
  | error x => exact obeys_reraise le_rfl nofun

theorem Meets.op (e : PgOp F) (he : ∀ n, e ≠ .sleep n) : Meets (pg e) := by
  intro n
  refine Prog.obeys_op.mpr ⟨trivial, fun a => ?_⟩
  cases a with
  | ok r =>
      refine ⟨n, ?_, le_rfl, nofun⟩
      cases e <;> rfl
  | error x =>
      have hnext : (errorCount F).next (some n) e (.error x) =
          if x.retried then some (n + 1) else some n := by
        cases e with
        | sleep m => exact absurd rfl (he m)
        | _ => rfl
      rw [hnext]
      split
      next => exact ⟨n + 1, rfl, n.le_succ, fun _ _ _ => n.lt_succ_self⟩
      next hx =>
        refine ⟨n, rfl, le_rfl, fun y hy hretried => ?_⟩
        cases hy
        exact absurd hretried hx

theorem Meets.bind {S : Type} {p : RepoM F R} {f : R → RepoM F S} (hp : Meets p)
    (hf : ∀ r, Meets (f r)) : Meets (p >>= f) := by
  intro n
  refine (hp n).seq ?_ ?_
  · rintro r _ ⟨n', rfl, hle, -⟩
    exact (hf r).since hle
  · rintro x _ ⟨n', rfl, hle, hmet⟩
    refine ⟨n', rfl, hle, fun y hy => hmet y ?_⟩
    rw [← Except.error.inj hy]

/-- The body of a `try`; the handler knows that its error was met. -/
theorem Meets.attempt_bind {S : Type} {p : RepoM F R} {f : Except PgExc R → RepoM F S}
    (hp : Meets p) (hok : ∀ r, Meets (f (.ok r)))
    (herr : ∀ x b n, b ≤ n → (x.retried → b < n) →
      (f (.error x)).Obeys (errorCount F) (MetSince b) (some n)) : Meets (p.attempt >>= f) := by
  intro n
  refine Prog.obeys_bind.mpr (Prog.obeys_attempt.mpr ((hp n).mono ?_))
  rintro out _ ⟨n', rfl, hle, hmet⟩
  cases out with
  | ok r => exact (hok r).since hle
  | error x => exact herr x n n' hle (hmet x rfl)

/-- After the cleanup, the error is raised again. -/
theorem Meets.cleanup {p : RepoM F Unit} (hp : Meets p) {x : PgExc} {b n : ℕ} (hle : b ≤ n)
    (hx : x.retried → b < n) :
    (p >>= fun _ => (.raise x : RepoM F R)).Obeys (errorCount F) (MetSince b) (some n) := by
  refine (hp n).seq ?_ ?_
  · rintro _ _ ⟨n', rfl, hle', -⟩
    exact obeys_reraise (hle.trans hle') fun hretried => (hx hretried).trans_le hle'
  · rintro y _ hmet
    obtain ⟨n', rfl, hle', herr⟩ := hmet.mono hle
    refine ⟨n', rfl, hle', fun z hz => herr z ?_⟩
    rw [← Except.error.inj hz]

theorem Meets.transaction {body : RepoM F R} (hbody : Meets body) : Meets (transaction body) := by
  refine (Meets.op .begin nofun).bind fun _ =>
    hbody.attempt_bind (fun r => ?_) fun x b n hle hx => ?_
  · exact (Meets.op .commit nofun).bind fun _ => Meets.ret r
  · exact (Meets.op .rollback nofun).cleanup hle hx

theorem Meets.withConnection {body : RepoM F R} (hbody : Meets body) :
    Meets (withConnection body) := by
  refine (Meets.op .acquire nofun).bind fun _ =>
    hbody.attempt_bind (fun r => ?_) fun x b n hle hx => ?_
  · exact (Meets.op .release nofun).bind fun _ => Meets.ret r
  · exact (Meets.op .release nofun).cleanup hle hx

/-- A loop that gives up has met an error in each of its attempts. -/
theorem retryFrom_met {fn : RepoM F R} (hfn : Meets fn) (lastExc : PgExc) (attempts : List ℕ)
    (n : ℕ) :
    (retryFrom fn lastExc attempts).Obeys (errorCount F)
      (fun out met => ∀ n', met = some n' → ∀ x, out = .error x → x.retried →
        n + attempts.length ≤ n') (some n) := by
  induction attempts generalizing lastExc n with
  | nil =>
      intro n' hn' _ _ _
      cases hn'
      exact le_rfl
  | cons attempt rest ih =>
      refine Prog.obeys_bind.mpr (Prog.obeys_attempt.mpr ((hfn n).mono ?_))
      rintro out _ ⟨n₁, rfl, -, hmet⟩
      cases out with
      | ok r => exact fun _ _ _ hr => nomatch hr
      | error x =>
          simp only
          split
          next hx =>
            refine Prog.obeys_op_bind.mpr ⟨trivial, fun _ => ?_, fun _ _ hnone => nomatch hnone⟩
            have hlt : n < n₁ := hmet x rfl hx
            refine (ih x n₁).mono fun out met h n' hn' y hy hretried => ?_
            have hle := h n' hn' y hy hretried
            rw [List.length_cons]
            omega
          next hx =>
            intro _ _ y hy hretried
            cases hy
            exact absurd hretried hx

/-- A call that raises an error that is retried has met one in each attempt. -/
theorem executeRetry_met {fn : RepoM F R} (hfn : Meets fn) (retries : ℕ) :
    (executeRetry fn retries).Obeys (errorCount F)
      (fun out met => ∀ n, met = some n → ∀ x, out = .error x → x.retried → retries ≤ n)
      (some 0) := by
  refine (retryFrom_met hfn _ (List.range retries) 0).mono fun out met h n hn x hx hretried => ?_
  have hle := h n hn x hx hretried
  rw [List.length_range] at hle
  omega

/-- The histories of calls on one pool. -/
abbrev PgHistory (ι F : Type) : Type := History ι (Orders ι F) (PgOp.Ans (F := F)) PgExc

section

variable {ι W : Type} [DecidableEq ι]

/-- An answer that is retried. -/
def metError (ev : Event W (PgOp.Ans (F := F)) PgExc) : Bool :=
  match ev.ans with
  | .error x => x.retried
  | .ok _ => false

/-- How many connection errors call `i` has met. -/
def connectionErrors (i : ι) (h : History ι W (PgOp.Ans (F := F)) PgExc) : ℕ :=
  h.countP fun entry => entry.1 = i ∧ metError entry.2

/-- A sleep that raised. -/
def sleepRaised (ev : Event W (PgOp.Ans (F := F)) PgExc) : Bool :=
  match ev with
  | ⟨_, .sleep _, .error _⟩ => true
  | _ => false

/-- While no sleep raises, the summary of a call is its number of connection errors. -/
theorem ghost_errorCount (i : ι) {h : History ι W (PgOp.Ans (F := F)) PgExc}
    (hsleep : ∀ entry ∈ h, sleepRaised entry.2 = false) :
    (errorCount F).ghost (some 0) i h = some (connectionErrors i h) := by
  induction h with
  | nil => rfl
  | cons entry h ih =>
      obtain ⟨j, w, e, a⟩ := entry
      have ih := ih fun entry hentry => hsleep entry (List.mem_cons_of_mem _ hentry)
      rw [connectionErrors, List.countP_cons]
      by_cases hj : j = i
      · subst hj
        rw [Discipline.ghost_self, ih]
        have hawake := hsleep _ List.mem_cons_self
        cases a with
        | ok r => cases e <;> simp [errorCount, metError, connectionErrors]
        | error x =>
            cases e with
            | sleep m => cases hawake
            | _ => cases hx : x.retried <;> simp [errorCount, metError, connectionErrors, hx]
      · rw [Discipline.ghost_other hj, ih]
        simp [hj, connectionErrors]

end

-- ============================================================================
-- What is secured
-- ============================================================================

section

variable {ι : Type} [DecidableEq ι] {T : OrdersTable F} {i : ι}
variable {env : Env (Orders ι F) (PgOp.Ans (F := F)) PgExc} {rely : Rely (Orders ι F)}

/-- What a transaction's body leaves to commit, or to roll back, is what the whole
    attempt secures; a connection error of the wrappers' own calls is one more
    outcome. -/
theorem attempt_secures {P Q : Except PgExc R → Orders ι F → Prop} {body : RepoM F R}
    (henv : ∀ {w e a w'}, env w e a w' → pgEnv T i w e a w')
    (hQ : ∀ out, rely.Stable (Q out))
    (hbody : ∀ w, w.tx i = .opened none none → body.Secures env rely P w)
    (hcommit : ∀ r w write lock, P (.ok r) w → w.tx i = .opened write lock →
      Q (.ok r) (w.commit i write))
    (hrollback : ∀ x w, P (.error x) w → Q (.error x) (w.drop i))
    (hretried : ∀ x w, x.retried → Q (.error x) w) (w : Orders ι F) :
    (withConnection (transaction body)).Secures env rely Q w := by
  have htrue : rely.Stable fun _ => True := fun _ _ _ _ => trivial
  have hraise : ∀ (x : PgExc) (w : Orders ι F), x.retried →
      (.raise x : RepoM F R).Secures env rely Q w := by
    intro x w hx
    exact Prog.secures_raise htrue trivial fun w _ => hretried x w hx
  refine Prog.secures_op_bind htrue trivial (fun w _ w₁ _ hacquire => ?_) fun w x w₁ _ hacquire =>
    hraise x w₁ (henv hacquire).1
  refine Prog.Secures.andFinally (P := Q) ?_ fun out w hout => ?_
  · refine Prog.secures_op_bind htrue trivial (fun w _ w₂ _ hbegin => ?_) fun w x w₂ _ hbegin =>
      hraise x w₂ (henv hbegin).1
    have hopened : w₂.tx i = .opened none none := by
      rw [(henv hbegin).2, Db.setTx_tx_self]
    refine (hbody w₂ hopened).attempt_bind fun out w hout => ?_
    cases out with
    | ok r =>
        refine Prog.secures_op_bind (rely.stable_later (P (.ok r))) hout
          (fun w _ w₃ hP hcommitted => ?_) fun w x w₃ _ hlost => hraise x w₃ (henv hlost).1
        obtain ⟨write, lock, htx, rfl⟩ := henv hcommitted
        exact Prog.secures_ret (hQ (.ok r)) (hcommit r w write lock (hP w (rely.refl w)) htx)
          fun _ h => h
    | error x =>
        refine Prog.secures_op_bind (rely.stable_later (P (.error x))) hout
          (fun w _ w₃ hP hrolled => ?_) fun w y w₃ _ hlost => hraise y w₃ (henv hlost).1
        have hw₃ : w₃ = w.drop i := henv hrolled
        rw [hw₃]
        exact Prog.secures_raise (hQ (.error x)) (hrollback x w (hP w (rely.refl w))) fun _ h => h
  · refine Prog.secures_op (hQ out) hout fun w a w₁ hQw hrelease w₂ hrel => ?_
    cases a with
    | ok _ =>
        have hw₁ : w₁ = w := henv hrelease
        rw [hw₁] at hrel
        exact hQ out _ _ hrel hQw
    | error y => exact hretried y w₂ (henv hrelease).1

/-- What each attempt secures, the retries secure, if it does not matter when a
    connection error is raised at last. -/
theorem executeRetry_secures {Q : Except PgExc R → Orders ι F → Prop} {fn : RepoM F R}
    (henv : ∀ {w e a w'}, env w e a w' → pgEnv T i w e a w')
    (hretried : ∀ x w, x.retried → Q (.error x) w)
    (hfn : ∀ w, fn.Secures env rely Q w) (retries : ℕ) (w : Orders ι F) :
    (executeRetry fn (retries + 1)).Secures env rely Q w := by
  have hloop : ∀ (attempts : List ℕ) (lastExc : PgExc), (attempts = [] → lastExc.retried) →
      ∀ w, (retryFrom fn lastExc attempts).Secures env rely Q w := by
    intro attempts
    induction attempts with
    | nil => exact fun lastExc hlast w w₁ _ => hretried lastExc w₁ (hlast rfl)
    | cons attempt rest ih =>
        intro lastExc _ w
        refine (hfn w).attempt_bind fun out w hout => ?_
        cases out with
        | ok r => exact hout
        | error x =>
            simp only
            split
            next hx =>
              refine Prog.secures_op_bind (rely.stable_later (Q (.error x))) hout
                (fun _ _ w₁ _ _ => ih x (fun _ => hx) w₁) fun w y w₁ _ hsleep => ?_
              cases (henv hsleep).1
            next => exact hout
  refine hloop _ _ (fun hnil => ?_) w
  rw [List.range_eq_nil] at hnil
  exact absurd hnil retries.succ_ne_zero

end

end Mtrader.Storage
