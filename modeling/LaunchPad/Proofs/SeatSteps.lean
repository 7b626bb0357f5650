import LaunchPad.Proofs.Expiry
import LaunchPad.SeatSteps

/-!
# The calls on seats run the machine

`reserveAtomic` and `expirePendingReservations` make the statements of their machine one by one, so
every run of calls is a trace of it (`trace_of_seat_run`).
-/

namespace LaunchPad

open Interleave Rows

variable {τ : Type} [DecidableEq τ] {actions : τ → SeatAction} {t : τ}

/-! ## The code runs the machine -/

/-- Where the body of a call leaves it: ended, or in the `catch`. -/
def AfterBody {α : Type} (reply : α → SeatReply) (r : Except DbError α) (p : SeatPhase) : Prop :=
  match r with
  | .ok a => p = .ended (.ok (reply a))
  | .error e => p = .catching e

/-- Where `selectPoolForUpdate` leaves a call that asks for `q`. -/
def afterSelect (q : ℤ) : Option ℤ → SeatPhase
  | none => .reject
  | some availableQty => if availableQty < q then .reject else .insert

theorem runs_reserveAtomic {env : ReserveEnv} {k userId : String} {q : ℤ}
    (hc : actions t = .call (.reserveAtomic env k q userId)) :
    (seats actions).Runs t (fun r p => p = .ended (r.map SeatReply.reserveAtomic))
      (reserveAtomic env t k q userId) .begin := by
  have hreject : (seats actions).Runs t (AfterBody SeatReply.reserveAtomic) (do
      Async.await ((tx t).rollbackTx env.onRollback)
      pure soldOut) .reject :=
    Machine.Runs.await_bind (o := fun _ => .ended (.ok (.reserveAtomic soldOut)))
      (e := .catching) (by simp [seats, hc, SeatAction.move, SeatCall.move])
      (fun _ => Machine.Runs.pure rfl) fun _ => rfl
  unfold reserveAtomic
  refine Machine.Runs.tryCatch (K := AfterBody SeatReply.reserveAtomic) ?_ (fun _ _ h => h) ?_
  · refine Machine.Runs.await_bind (o := fun _ => .select) (e := .catching)
      (by simp [seats, hc, SeatAction.move, SeatCall.move]) (fun _ => ?_) fun _ => rfl
    refine Machine.Runs.await_bind (o := afterSelect q) (e := .catching)
      (by change (actions t).move t .select = _; rw [hc]; rfl) (fun found => ?_) fun _ => rfl
    rcases found with _ | availableQty
    · exact hreject
    simp only [afterSelect]
    split_ifs with hlt
    · exact hreject
    refine Machine.Runs.await_bind (o := fun _ => .update) (e := .catching)
      (by simp [seats, hc, SeatAction.move, SeatCall.move]) (fun _ => ?_) fun _ => rfl
    refine Machine.Runs.await_bind (o := fun rowCount => if rowCount = 0 then .reject
        else .commitReserve) (e := .catching)
      (by simp [seats, hc, SeatAction.move, SeatCall.move]) (fun rowCount => ?_) fun _ => rfl
    split_ifs with h0
    · exact hreject
    · exact Machine.Runs.await_bind
        (o := fun _ => .ended (.ok (.reserveAtomic ⟨true, .reserved, some env.reservationId⟩)))
        (e := .catching) (by simp [seats, hc, SeatAction.move, SeatCall.move])
        (fun _ => Machine.Runs.pure rfl) fun _ => rfl
  · rintro err p rfl
    exact Machine.Runs.await_bind (o := fun _ => .ended (.error err))
      (e := fun e => .ended (.error e)) (by simp [seats, hc, SeatAction.move, SeatCall.move])
      (fun _ => Machine.Runs.throw rfl) fun _ => rfl

theorem runs_releaseAll {env : ExpiryEnv} {batchSize : ℤ} {scope : Option String}
    (hc : actions t = .call (.expirePendingReservations env batchSize scope))
    (rows : List ExpiredRow) : ∀ (m : List (String × ℤ)) (n : ℕ),
    (seats actions).Runs t (fun r p => match r with
        | .ok _ => p = .commitExpiry rows
        | .error e => p = .catching e) (releaseAll env t n m) (.loop n rows m)
  | [], n => Machine.Runs.pure rfl
  | (k, q) :: m, n => by
    unfold releaseAll
    exact Machine.Runs.await_bind (o := fun _ => .loop (n + 1) rows m) (e := .catching)
      (by simp [seats, hc, SeatAction.move, SeatCall.move, SeatPhase.loop])
      (fun _ => runs_releaseAll hc rows m (n + 1)) fun _ => rfl

theorem runs_expirePendingReservations {env : ExpiryEnv} {batchSize : ℤ} {scope : Option String}
    (hc : actions t = .call (.expirePendingReservations env batchSize scope)) :
    (seats actions).Runs t (fun r p => p = .ended (r.map SeatReply.expirePendingReservations))
      (expirePendingReservations env t batchSize scope) .begin := by
  have hcommit : ∀ rows : List ExpiredRow, (seats actions).Runs t
      (AfterBody SeatReply.expirePendingReservations) (do
        Async.await ((tx t).commitTx env.onCommit)
        pure (expiryResult rows)) (.commitExpiry rows) := fun rows =>
    Machine.Runs.await_bind
      (o := fun _ => .ended (.ok (.expirePendingReservations (expiryResult rows))))
      (e := .catching) (by simp [seats, hc, SeatAction.move, SeatCall.move])
      (fun _ => Machine.Runs.pure rfl) fun _ => rfl
  unfold expirePendingReservations
  refine Machine.Runs.tryCatch (K := AfterBody SeatReply.expirePendingReservations) ?_
    (fun _ _ h => h) ?_
  · refine Machine.Runs.await_bind (o := fun _ => .scan) (e := .catching)
      (by simp [seats, hc, SeatAction.move, SeatCall.move]) (fun _ => ?_) fun _ => rfl
    refine Machine.Runs.await_bind
      (o := fun ids => if ids = [] then .commitExpiry [] else .mark ids) (e := .catching)
      (by simp [seats, hc, SeatAction.move, SeatCall.move]) (fun ids => ?_) fun _ => rfl
    split_ifs with hids
    · exact hcommit []
    refine Machine.Runs.await_bind (o := fun rows => .loop 0 rows (capacityByTicketType rows))
      (e := .catching) (by simp [seats, hc, SeatAction.move, SeatCall.move]) (fun rows => ?_)
      fun _ => rfl
    refine Machine.Runs.bind (runs_releaseAll hc rows _ 0) ?_ fun _ _ h => h
    rintro _ p rfl
    exact hcommit rows
  · rintro err p rfl
    exact Machine.Runs.await_bind (o := fun _ => .ended (.error err))
      (e := fun e => .ended (.error e)) (by simp [seats, hc, SeatAction.move, SeatCall.move])
      (fun _ => Machine.Runs.throw rfl) fun _ => rfl

theorem runs_seatCall {c : SeatCall} (hc : actions t = .call c) :
    (seats actions).Runs t (fun r p => p = .ended r) (c.program t) .begin := by
  rcases c with ⟨env, k, q, userId⟩ | ⟨env, batchSize, scope⟩
  · refine Machine.Runs.bind (runs_reserveAtomic hc) ?_ ?_
    · rintro r p rfl
      exact Machine.Runs.pure rfl
    · rintro e p rfl
      rfl
  · refine Machine.Runs.bind (runs_expirePendingReservations hc) ?_ ?_
    · rintro r p rfl
      exact Machine.Runs.pure rfl
    · rintro e p rfl
      rfl

/-- What an action ends with, and where it stands then. -/
def ActionEnds (r : Except DbError (Option SeatReply)) (p : SeatPhase) : Prop :=
  p = .introduced ∧ (∀ r', r ≠ .ok (some r')) ∨ ∃ r', p = .ended r' ∧ r = r'.map some

theorem runs_seatAction (t : τ) :
    (seats actions).Runs t ActionEnds ((actions t).program t) .begin := by
  rcases hc : actions t with c | ⟨id, userId, k, q, expiresAt⟩
  · refine Machine.Runs.bind (runs_seatCall hc) ?_ ?_
    · rintro r p rfl
      exact Machine.Runs.pure (.inr ⟨_, rfl, rfl⟩)
    · rintro e p rfl
      exact .inr ⟨_, rfl, rfl⟩
  · exact Machine.Runs.await_bind (o := fun _ => .introduced) (e := fun _ => .introduced)
      (by simp [seats, hc, SeatAction.move]) (fun _ => Machine.Runs.pure (.inl ⟨rfl, by simp⟩))
      fun _ => .inl ⟨rfl, by simp⟩

/-- Every run of calls is a trace of the machine, and tells what each has ended with. -/
theorem trace_of_seat_run {db : Db τ} {calls : τ → SeatCall} {h : List (Taken τ (Db τ))}
    {c : Config τ (Db τ) DbError SeatReply} (hrun : (seatCalls db calls).Run h c) :
    (seats fun t => .call (calls t)).Trace db h c.world
      ∧ ∀ t, (seats fun t => .call (calls t)).Runs t (fun r p => p = .ended r) (c.thread t)
        ((seats fun t => .call (calls t)).phases h t) := by
  refine Machine.trace_of_run (M := seats fun t => .call (calls t)) (F := fun _ r p => p = .ended r)
    (fun t => ?_) hrun
  apply runs_seatCall
  rfl

theorem trace_of_action_run {db : Db τ} {h : List (Taken τ (Db τ))}
    {c : Config τ (Db τ) DbError (Option SeatReply)} (hrun : (seatActions db actions).Run h c) :
    (seats actions).Trace db h c.world
      ∧ ∀ t, (seats actions).Runs t ActionEnds (c.thread t) ((seats actions).phases h t) :=
  Machine.trace_of_run (F := fun _ => ActionEnds) runs_seatAction hrun

/-! ## What a statement does -/

/-- The statements of an action: where it stood, the database before and after, and where it stands.
Where one fails, the transaction is rolled back, and the call is in its `catch`. -/
inductive SeatMove (t : τ) (db : Db τ) : SeatAction → SeatPhase → Db τ → SeatPhase → Prop
  | begin {env : ReserveEnv} {k u : String} {q : ℤ} :
      SeatMove t db (.call (.reserveAtomic env k q u)) .begin db .select
  | beginScan {env : ExpiryEnv} {n : ℤ} {scope : Option String} :
      SeatMove t db (.call (.expirePendingReservations env n scope)) .begin db .scan
  | missing {env : ReserveEnv} {k u : String} {q : ℤ} (hrow : (db.pools.view t).row k = none) :
      SeatMove t db (.call (.reserveAtomic env k q u)) .select db .reject
  | locked {env : ReserveEnv} {k u : String} {q : ℤ} {p : PoolRow}
      (hrow : (db.pools.view t).row k = some p) (hfree : db.pools.Free t k) :
      SeatMove t db (.call (.reserveAtomic env k q u)) .select
        { db with pools := db.pools.lock t k } (if p.availableQty < q then .reject else .insert)
  | inserted {env : ReserveEnv} {k u : String} {q : ℤ} (hq : 0 < q)
      (hfree : db.reservations.Free t env.reservationId)
      (hrow : (db.reservations.view t).row env.reservationId = none) :
      SeatMove t db (.call (.reserveAtomic env k q u)) .insert
        { db with
          reservations := db.reservations.write t env.reservationId
            ⟨u, k, q, .active, env.now + 10 * 60 * 1000, hq⟩ } .update
  | updated {env : ReserveEnv} {k u : String} {q : ℤ} {p : PoolRow}
      (hrow : (db.pools.view t).row k = some p) (hfree : db.pools.Free t k)
      (hq : q ≤ p.availableQty) (hcheck : (p.shift q).violated = none) :
      SeatMove t db (.call (.reserveAtomic env k q u)) .update
        { db with pools := db.pools.write t k (p.shift q) } .commitReserve
  | missed {env : ReserveEnv} {k u : String} {q : ℤ}
      (hrow : ∀ p, (db.pools.view t).row k = some p → p.availableQty < q) :
      SeatMove t db (.call (.reserveAtomic env k q u)) .update db .reject
  | scanned {env : ExpiryEnv} {n : ℤ} {scope : Option String} (hn : 0 ≤ n)
      (hb : IsBatch (expirable db t env.now (truthy scope)) (expiryOf db t) n.toNat env.picked) :
      SeatMove t db (.call (.expirePendingReservations env n scope)) .scan
        { db with reservations := lockReservations t env.picked db.reservations }
        (if env.picked = [] then .commitExpiry [] else .mark env.picked)
  | marked {env : ExpiryEnv} {n : ℤ} {scope : Option String} {ids : List String}
      (hperm : env.returned.Perm (pendingAmong db t ids))
      (hfree : ∀ id ∈ env.returned, db.reservations.Free t id) :
      SeatMove t db (.call (.expirePendingReservations env n scope)) (.mark ids)
        { db with reservations := env.returned.foldl (expireRow t) db.reservations }
        (.loop 0 (returning db t env.returned) (capacityByTicketType (returning db t env.returned)))
  | unpooled {env : ExpiryEnv} {n : ℤ} {scope : Option String} {i : ℕ} {rows : List ExpiredRow}
      {k : String} {q : ℤ} {rest : List (String × ℤ)} (hrow : (db.pools.view t).row k = none) :
      SeatMove t db (.call (.expirePendingReservations env n scope)) (.release i rows k q rest) db
        (.loop (i + 1) rows rest)
  | released {env : ExpiryEnv} {n : ℤ} {scope : Option String} {i : ℕ} {rows : List ExpiredRow}
      {k : String} {q : ℤ} {rest : List (String × ℤ)} {p p' : PoolRow}
      (hrow : (db.pools.view t).row k = some p) (hfree : db.pools.Free t k)
      (hp : p' = { p with
        availableQty := min p.totalCapacity (p.availableQty + q)
        reservedQty := max 0 (p.reservedQty - q) }) (hcheck : p'.violated = none) :
      SeatMove t db (.call (.expirePendingReservations env n scope)) (.release i rows k q rest)
        { db with
          pools := db.pools.write t k p'
          poolLog := db.poolLog ++ [.released p p' q] } (.loop (i + 1) rows rest)
  | committedReserve {env : ReserveEnv} {k u : String} {q : ℤ} {p' : SeatPhase}
      (hp : p' = .ended (.ok (.reserveAtomic ⟨true, .reserved, some env.reservationId⟩))
        ∨ env.onCommit ≠ .answered ∧ p' = .catching .statementFailed) :
      SeatMove t db (.call (.reserveAtomic env k q u)) .commitReserve (db.commit t) p'
  | committedExpiry {env : ExpiryEnv} {n : ℤ} {scope : Option String} {rows : List ExpiredRow}
      {p' : SeatPhase}
      (hp : p' = .ended (.ok (.expirePendingReservations (expiryResult rows)))
        ∨ env.onCommit ≠ .answered ∧ p' = .catching .statementFailed) :
      SeatMove t db (.call (.expirePendingReservations env n scope)) (.commitExpiry rows)
        (db.commit t) p'
  | rejected {env : ReserveEnv} {k u : String} {q : ℤ} {p' : SeatPhase}
      (hp : p' = .ended (.ok (.reserveAtomic soldOut))
        ∨ env.onRollback ≠ .answered ∧ p' = .catching .statementFailed) :
      SeatMove t db (.call (.reserveAtomic env k q u)) .reject (db.rollback t) p'
  | aborted {c : SeatCall} {p : SeatPhase} {log : List PoolEvent} {e : DbError}
      (hm : c.move t p db = some (({ db with poolLog := log } : Db τ).rollback t, .catching e)) :
      SeatMove t db (.call c) p (({ db with poolLog := log } : Db τ).rollback t) (.catching e)
  | caught {c : SeatCall} {err e : DbError} :
      SeatMove t db (.call c) (.catching err) (db.rollback t) (.ended (.error e))
  | introduced {id u k : String} {q : ℤ} {expiresAt : Time} {p : PoolRow} (hq : 0 < q)
      (hpool : db.pools.Free t k) (hfree : db.reservations.Free t id)
      (hp : db.pools.committed.row k = some p) (hrow : db.reservations.committed.row id = none)
      (hle : q ≤ p.availableQty) :
      SeatMove t db (.introduceHold id u k q expiresAt) .begin
        { db with
          pools := (db.pools.write t k (p.shift q)).commit t
          reservations := (db.reservations.write t id
            ⟨u, k, q, .pending, expiresAt, hq⟩).commit t } .introduced
  | refused {id u k : String} {q : ℤ} {expiresAt : Time} :
      SeatMove t db (.introduceHold id u k q expiresAt) .begin db .introduced

section Inversion

variable {db db' : Db τ}

/-- A write of a pool row, as the two UPDATEs make it, or the CHECK it breaks. -/
theorem writePool_eq_some {k : String} {p : PoolRow} {r : Except DbError Unit}
    (h : writePool t k p db = some (r, db')) :
    (r = .ok () ∧ p.violated = none ∧ db' = { db with pools := db.pools.write t k p })
      ∨ p.violated ≠ none ∧ ∃ e, r = .error e ∧ ∃ log, db' = { db with poolLog := log } := by
  unfold writePool at h
  split at h <;> simp only [Option.some.injEq, Prod.mk.injEq] at h <;> obtain ⟨rfl, rfl⟩ := h
  · rename_i hcheck
    exact .inr ⟨by simp [hcheck], _, rfl, _, rfl⟩
  · rename_i hcheck
    exact .inl ⟨rfl, hcheck, rfl⟩

theorem insertReservation_eq_some {id u k : String} {q : ℤ} {e : Time} {r : Except DbError Unit}
    (h : insertReservation t id u k q e db = some (r, db')) :
    (∃ hq : 0 < q, r = .ok () ∧ db.reservations.Free t id
        ∧ (db.reservations.view t).row id = none
        ∧ db' = { db with reservations := db.reservations.write t id ⟨u, k, q, .active, e, hq⟩ })
      ∨ db' = db ∧ (r = .error .quantityCheck ∧ ¬ 0 < q
        ∨ r = .error .duplicateKey ∧ (db.reservations.view t).row id ≠ none) := by
  unfold insertReservation at h
  split_ifs at h with hq hfree
  · rcases hrow : (db.reservations.view t).row id with _ | row <;> rw [hrow] at h <;>
      simp only [Option.some.injEq, Prod.mk.injEq] at h <;> obtain ⟨rfl, rfl⟩ := h
    · exact .inl ⟨hq, rfl, hfree, rfl, rfl⟩
    · exact .inr ⟨rfl, .inr ⟨rfl, by simp⟩⟩
  · simp only [Option.some.injEq, Prod.mk.injEq] at h
    obtain ⟨rfl, rfl⟩ := h
    exact .inr ⟨rfl, .inl ⟨rfl, hq⟩⟩

theorem selectPoolForUpdate_eq_some {k : String} {r : Except DbError (Option ℤ)}
    (h : selectPoolForUpdate t k db = some (r, db')) :
    (r = .ok none ∧ (db.pools.view t).row k = none ∧ db' = db)
      ∨ ∃ p, r = .ok (some p.availableQty) ∧ (db.pools.view t).row k = some p
        ∧ db.pools.Free t k ∧ db' = { db with pools := db.pools.lock t k } := by
  unfold selectPoolForUpdate at h
  rcases hrow : (db.pools.view t).row k with _ | p <;> rw [hrow] at h <;> simp only [] at h
  · simp only [Option.some.injEq, Prod.mk.injEq] at h
    exact .inl ⟨h.1.symm, rfl, h.2.symm⟩
  · split_ifs at h with hfree
    simp only [Option.some.injEq, Prod.mk.injEq] at h
    exact .inr ⟨p, h.1.symm, rfl, hfree, h.2.symm⟩

theorem updatePoolReserve_eq_some {k : String} {q : ℤ} {r : Except DbError ℕ}
    (h : updatePoolReserve t k q db = some (r, db')) :
    (r = .ok 0 ∧ (∀ p, (db.pools.view t).row k = some p → p.availableQty < q) ∧ db' = db)
      ∨ ∃ p, (db.pools.view t).row k = some p ∧ db.pools.Free t k ∧ q ≤ p.availableQty
        ∧ ((r = .ok 1 ∧ (p.shift q).violated = none
            ∧ db' = { db with pools := db.pools.write t k (p.shift q) })
          ∨ (p.shift q).violated ≠ none
            ∧ ∃ e, r = .error e ∧ ∃ log, db' = { db with poolLog := log }) := by
  unfold updatePoolReserve at h
  rcases hrow : (db.pools.view t).row k with _ | p <;> rw [hrow] at h <;> simp only [] at h
  · simp only [Option.some.injEq, Prod.mk.injEq] at h
    exact .inl ⟨h.1.symm, by simp, h.2.symm⟩
  · split_ifs at h with hfree hq
    · refine .inr ⟨p, rfl, hfree, hq, ?_⟩
      rcases Sync.bind_eq_some.1 h with ⟨u, db₁, hw, hp⟩ | ⟨e, hw, rfl⟩
      · simp only [Sync.pure_apply, Option.some.injEq, Prod.mk.injEq] at hp
        obtain ⟨rfl, rfl⟩ := hp
        rcases writePool_eq_some hw with ⟨-, hcheck, hdb⟩ | ⟨-, e, he, -⟩
        · exact .inl ⟨rfl, hcheck, hdb⟩
        · simp at he
      · rcases writePool_eq_some hw with ⟨he, -⟩ | ⟨hcheck, e', -, hlog⟩
        · simp at he
        · exact .inr ⟨hcheck, e, rfl, hlog⟩
    · simp only [Option.some.injEq, Prod.mk.injEq] at h
      refine .inl ⟨h.1.symm, fun p' hp' => ?_, h.2.symm⟩
      obtain rfl := Option.some.inj hp'
      omega

theorem releaseCapacity_eq_some {k : String} {q : ℤ} {r : Except DbError Unit}
    (h : releaseCapacity t k q db = some (r, db')) :
    (r = .ok () ∧ (db.pools.view t).row k = none ∧ db' = db)
      ∨ (∃ p p', (db.pools.view t).row k = some p ∧ db.pools.Free t k
        ∧ p' = { p with
          availableQty := min p.totalCapacity (p.availableQty + q)
          reservedQty := max 0 (p.reservedQty - q) }
        ∧ r = .ok () ∧ p'.violated = none
        ∧ db' = { db with
          pools := db.pools.write t k p'
          poolLog := db.poolLog ++ [.released p p' q] })
      ∨ ∃ e, r = .error e ∧ ∃ log, db' = { db with poolLog := log } := by
  unfold releaseCapacity at h
  rcases hrow : (db.pools.view t).row k with _ | p <;> rw [hrow] at h <;> simp only [] at h
  · simp only [Option.some.injEq, Prod.mk.injEq] at h
    exact .inl ⟨h.1.symm, rfl, h.2.symm⟩
  · split_ifs at h with hfree
    rcases writePool_eq_some h with ⟨rfl, hcheck, hdb⟩ | ⟨-, e, rfl, log, hdb⟩
    · exact .inr (.inl ⟨p, _, rfl, hfree, rfl, rfl, hcheck, hdb⟩)
    · exact .inr (.inr ⟨e, rfl, log, hdb⟩)

/-- A statement that fails, of itself or for its fate, leaves the transaction rolled back. -/
theorem SeatMove.of_failed {c : SeatCall} {p p' : SeatPhase} {db₁ : Db τ} {e : DbError}
    (hm : c.move t p db = some (db', p')) (hp : p' = .catching e) (hdb : db' = (tx t).rollback db₁)
    (hlog : ∃ log, db₁ = { db with poolLog := log }) : SeatMove t db (.call c) p db' p' := by
  obtain ⟨log, rfl⟩ := hlog
  subst hp hdb
  exact .aborted hm

theorem SeatMove.of_reserveAtomic {env : ReserveEnv} {k u : String} {q : ℤ} {p p' : SeatPhase}
    (hm : (SeatCall.reserveAtomic env k q u).move t p db = some (db', p')) :
    SeatMove t db (.call (.reserveAtomic env k q u)) p db' p' := by
  have hsame : ∃ log, db = { db with poolLog := log } := ⟨_, rfl⟩
  cases p <;> have hmove := hm <;> simp only [SeatCall.move, reduceCtorEq] at hmove
  case begin =>
    rcases Machine.segment_statement hmove with ⟨_, hs, rfl⟩ | ⟨e, db₁, hp, hdb, ⟨-, rfl⟩ | hs⟩
    · simp only [Sync.pure_apply, Option.some.injEq, Prod.mk.injEq] at hs
      rw [← hs.2]
      exact .begin
    · exact .of_failed hm hp hdb hsame
    · simp at hs
  case select =>
    rcases Machine.segment_statement hmove with ⟨found, hs, rfl⟩ | ⟨e, db₁, hp, hdb, ⟨-, rfl⟩ | hs⟩
    · rcases selectPoolForUpdate_eq_some hs with ⟨hr, hrow, rfl⟩ | ⟨p, hr, hrow, hfree, rfl⟩ <;>
        obtain rfl := Except.ok.inj hr
      · exact .missing hrow
      · exact .locked hrow hfree
    · exact .of_failed hm hp hdb hsame
    · rcases selectPoolForUpdate_eq_some hs with ⟨hr, -⟩ | ⟨p, hr, -⟩ <;> simp at hr
  case insert =>
    rcases Machine.segment_statement hmove with ⟨_, hs, rfl⟩ | ⟨e, db₁, hp, hdb, ⟨-, rfl⟩ | hs⟩
    · rcases insertReservation_eq_some hs with ⟨hq, -, hfree, hrow, rfl⟩ | ⟨-, ⟨hr, -⟩ | ⟨hr, -⟩⟩
      · exact .inserted hq hfree hrow
      · simp at hr
      · simp at hr
    · exact .of_failed hm hp hdb hsame
    · rcases insertReservation_eq_some hs with ⟨-, hr, -⟩ | ⟨rfl, -⟩
      · simp at hr
      · exact .of_failed hm hp hdb hsame
  case update =>
    rcases Machine.segment_statement hmove with ⟨n, hs, rfl⟩ | ⟨e, db₁, hp, hdb, ⟨-, rfl⟩ | hs⟩
    · rcases updatePoolReserve_eq_some hs with
        ⟨hr, hrow, rfl⟩ | ⟨p, hrow, hfree, hq, ⟨hr, hcheck, rfl⟩ | ⟨-, e, hr, -⟩⟩
      · obtain rfl := Except.ok.inj hr
        exact .missed hrow
      · obtain rfl := Except.ok.inj hr
        exact .updated hrow hfree hq hcheck
      · simp at hr
    · exact .of_failed hm hp hdb hsame
    · rcases updatePoolReserve_eq_some hs with ⟨hr, -⟩ | ⟨p, -, -, -, ⟨hr, -⟩ | ⟨-, e', -, hlog⟩⟩
      · simp at hr
      · simp at hr
      · exact .of_failed hm hp hdb hlog
  case commitReserve =>
    rcases Machine.segment_commitTx hmove with ⟨rfl, ⟨-, hp⟩ | ⟨hf, hp⟩⟩ | ⟨-, hdb, hp⟩
    · exact .committedReserve (.inl hp)
    · exact .committedReserve (.inr ⟨by simp [hf], hp⟩)
    · exact .of_failed hm hp hdb hsame
  case reject =>
    obtain ⟨rfl, ⟨-, hp⟩ | hp⟩ := Machine.segment_rollbackTx hmove
    · exact .rejected (.inl hp)
    · exact .rejected (.inr hp)
  case catching =>
    obtain ⟨rfl, ⟨-, rfl⟩ | ⟨-, rfl⟩⟩ := Machine.segment_rollbackTx hmove
    · exact .caught
    · exact .caught

theorem SeatMove.of_expirePendingReservations {env : ExpiryEnv} {n : ℤ} {scope : Option String}
    {p p' : SeatPhase}
    (hm : (SeatCall.expirePendingReservations env n scope).move t p db = some (db', p')) :
    SeatMove t db (.call (.expirePendingReservations env n scope)) p db' p' := by
  have hsame : ∃ log, db = { db with poolLog := log } := ⟨_, rfl⟩
  cases p <;> have hmove := hm <;> simp only [SeatCall.move, reduceCtorEq] at hmove
  case begin =>
    rcases Machine.segment_statement hmove with ⟨_, hs, rfl⟩ | ⟨e, db₁, hp, hdb, ⟨-, rfl⟩ | hs⟩
    · simp only [Sync.pure_apply, Option.some.injEq, Prod.mk.injEq] at hs
      rw [← hs.2]
      exact .beginScan
    · exact .of_failed hm hp hdb hsame
    · simp at hs
  case scan =>
    rcases Machine.segment_statement hmove with ⟨ids, hs, rfl⟩ | ⟨e, db₁, hp, hdb, ⟨-, rfl⟩ | hs⟩
    · rcases selectExpired_eq_some hs with ⟨hr, -⟩ | ⟨hn, hb, hr, rfl⟩
      · cases hr
      · obtain rfl := Except.ok.inj hr
        exact .scanned hn hb
    · exact .of_failed hm hp hdb hsame
    · rcases selectExpired_eq_some hs with ⟨-, rfl⟩ | ⟨-, -, hr, -⟩
      · exact .of_failed hm hp hdb hsame
      · cases hr
  case mark =>
    rcases Machine.segment_statement hmove with ⟨ids, hs, rfl⟩ | ⟨e, db₁, hp, hdb, ⟨-, rfl⟩ | hs⟩
    · obtain ⟨hperm, hfree, hr, rfl⟩ := markExpired_eq_some hs
      obtain rfl := Except.ok.inj hr
      exact .marked hperm hfree
    · exact .of_failed hm hp hdb hsame
    · obtain ⟨-, -, hr, -⟩ := markExpired_eq_some hs
      cases hr
  case release =>
    rcases Machine.segment_statement hmove with ⟨_, hs, rfl⟩ | ⟨e, db₁, hp, hdb, ⟨-, rfl⟩ | hs⟩
    · rcases releaseCapacity_eq_some hs with
        ⟨-, hrow, rfl⟩ | ⟨p, p', hrow, hfree, hp', -, hcheck, rfl⟩ | ⟨e, hr, -⟩
      · exact .unpooled hrow
      · exact .released hrow hfree hp' hcheck
      · simp at hr
    · exact .of_failed hm hp hdb hsame
    · rcases releaseCapacity_eq_some hs with ⟨hr, -⟩ | ⟨p, p', -, -, -, hr, -⟩ | ⟨e', -, hlog⟩
      · simp at hr
      · simp at hr
      · exact .of_failed hm hp hdb hlog
  case commitExpiry =>
    rcases Machine.segment_commitTx hmove with ⟨rfl, ⟨-, hp⟩ | ⟨hf, hp⟩⟩ | ⟨-, hdb, hp⟩
    · exact .committedExpiry (.inl hp)
    · exact .committedExpiry (.inr ⟨by simp [hf], hp⟩)
    · exact .of_failed hm hp hdb hsame
  case catching =>
    obtain ⟨rfl, ⟨-, rfl⟩ | ⟨-, rfl⟩⟩ := Machine.segment_rollbackTx hmove
    · exact .caught
    · exact .caught

/-- Every move of an action is one of its statements. -/
theorem SeatMove.of_move {a : SeatAction} {p p' : SeatPhase}
    (hm : a.move t p db = some (db', p')) : SeatMove t db a p db' p' := by
  rcases a with ⟨⟨env, k, q, u⟩ | ⟨env, n, scope⟩⟩ | ⟨id, u, k, q, expiresAt⟩
  · exact .of_reserveAtomic hm
  · exact .of_expirePendingReservations hm
  · cases p <;> simp only [SeatAction.move, reduceCtorEq] at hm
    rcases Machine.segment_eq_some.1 hm with ⟨_, hs, rfl⟩ | ⟨e, hs, rfl⟩ <;>
      unfold introduceHold at hs <;> split_ifs at hs with hq hfree
    · split at hs
      · rename_i p hp hrow
        split_ifs at hs with hle
        · simp only [Option.some.injEq, Prod.mk.injEq] at hs
          obtain ⟨-, rfl⟩ := hs
          exact .introduced hq hfree.1 hfree.2 hp hrow hle
        · simp at hs
      · simp at hs
    · simp at hs
    · have hdb : db' = db := by
        split at hs
        · split_ifs at hs
          · simp at hs
          · simp only [Option.some.injEq, Prod.mk.injEq] at hs
            exact hs.2.symm
        · simp only [Option.some.injEq, Prod.mk.injEq] at hs
          exact hs.2.symm
      subst hdb
      exact .refused
    · simp only [Option.some.injEq, Prod.mk.injEq] at hs
      rw [← hs.2]
      exact .refused

end Inversion

/-! ## What is committed -/

section Committed

variable {db db' : Db τ}

/-- What a statement does to the committed rows: only a COMMIT changes them, and the introduction of
a hold. -/
inductive CommittedBy (t : τ) (db : Db τ) : SeatAction → SeatPhase → Db τ → Prop
  | kept {a : SeatAction} {p : SeatPhase} {db' : Db τ}
      (hpools : db'.pools.committed = db.pools.committed)
      (hreservations : db'.reservations.committed = db.reservations.committed) :
      CommittedBy t db a p db'
  | reserve {env : ReserveEnv} {k u : String} {q : ℤ} :
      CommittedBy t db (.call (.reserveAtomic env k q u)) .commitReserve (db.commit t)
  | expiry {env : ExpiryEnv} {n : ℤ} {scope : Option String} {rows : List ExpiredRow} :
      CommittedBy t db (.call (.expirePendingReservations env n scope)) (.commitExpiry rows)
        (db.commit t)
  | hold {id u k : String} {q : ℤ} {expiresAt : Time} {p : PoolRow} {db' : Db τ} (hq : 0 < q)
      (hp : db.pools.committed.row k = some p) (hle : q ≤ p.availableQty)
      (hrow : db.reservations.committed.row id = none)
      (hpools : db'.pools.committed = (db.pools.write t k (p.shift q)).view t)
      (hreservations : db'.reservations.committed
        = (db.reservations.write t id ⟨u, k, q, .pending, expiresAt, hq⟩).view t) :
      CommittedBy t db (.introduceHold id u k q expiresAt) .begin db'

omit [DecidableEq τ] in
theorem committed_lockReservations : ∀ (ids : List String) (V : TxTable τ String ReservationRow),
    (lockReservations t ids V).committed = V.committed
  | [], _ => rfl
  | id :: ids, V => committed_lockReservations ids (V.lock t id)

theorem committed_expireRow (V : TxTable τ String ReservationRow) (id : String) :
    (expireRow t V id).committed = V.committed := by
  unfold expireRow
  split <;> rfl

theorem committed_expireRows : ∀ (ids : List String) (V : TxTable τ String ReservationRow),
    (ids.foldl (expireRow t) V).committed = V.committed
  | [], _ => rfl
  | id :: ids, V =>
    (committed_expireRows ids (expireRow t V id)).trans (committed_expireRow V id)

theorem SeatMove.committed {a : SeatAction} {p p' : SeatPhase} (hm : SeatMove t db a p db' p') :
    CommittedBy t db a p db' := by
  cases hm with
  | committedReserve => exact .reserve
  | committedExpiry => exact .expiry
  | introduced hq _ _ hp hrow hle => exact .hold hq hp hle hrow rfl rfl
  | scanned => exact .kept rfl (committed_lockReservations _ _)
  | marked => exact .kept rfl (committed_expireRows _ _)
  | _ => exact .kept rfl rfl

end Committed

end LaunchPad
