import LaunchPad.Lib.Hoare
import LaunchPad.Proofs.Expiry
import Mathlib.Data.Finset.Order

/-!
# Which held seats come back

`reserveAtomic` inserts its reservations with status 'ACTIVE' (`reserveAtomic_success`), and the
expiry scan looks for 'PENDING' ones, so it finds nothing and changes nothing
(`expirePendingReservations_idle`). Only where nothing was reserved are the pools full again.
-/

namespace LaunchPad

open Interleave Rows

variable {τ : Type} [DecidableEq τ] {t : τ} {db db' : Db τ}

/-- No transaction is open. -/
def Quiet (db : Db τ) : Prop :=
  db.pools = .ofTable db.pools.committed ∧ db.reservations = .ofTable db.reservations.committed

/-- `t` is the only open transaction. -/
def Alone (t : τ) (db : Db τ) : Prop := TxTable.Solo t db.pools ∧ TxTable.Solo t db.reservations

theorem Quiet.alone (h : Quiet db) (t : τ) : Alone t db := by
  constructor
  · rw [h.1]
    exact TxTable.solo_ofTable t _
  · rw [h.2]
    exact TxTable.solo_ofTable t _

theorem Alone.quiet_rollback (h : Alone t db) : Quiet (db.rollback t) :=
  ⟨h.1.rollback_eq, h.2.rollback_eq⟩

theorem Alone.quiet_commit (h : Alone t db) : Quiet (db.commit t) :=
  ⟨h.1.commit_eq, h.2.commit_eq⟩

omit [DecidableEq τ] in
theorem Quiet.pending_reservations (h : Quiet db) (t : τ) : db.reservations.pending t = .empty := by
  rw [h.2]
  rfl

omit [DecidableEq τ] in
theorem Quiet.view_reservations (h : Quiet db) (t : τ) :
    db.reservations.view t = db.reservations.committed := by
  rw [TxTable.view, h.pending_reservations, Table.overlay_empty]

/-! ## What `reserveAtomic` leaves -/

/-- The database where `t` may commit: it alone is open, and its one reservation is ACTIVE. -/
def Inserting (t : τ) (id : String) (db db' : Db τ) : Prop :=
  Alone t db' ∧ ∃ r : ReservationRow, r.status = .active ∧
    db'.reservations.view t = db.reservations.committed.set id r

theorem insertReservation_inserting {id userId k : String} {q : ℤ} {e : Time} {db₁ : Db τ}
    (h : Alone t db₁) (hp : db₁.reservations.pending t = .empty)
    (hc : db₁.reservations.committed = db.reservations.committed) :
    (insertReservation t id userId k q e).wp
      (onOk fun _ db' => Inserting t id db db') db₁ := by
  intro r db' hs
  unfold insertReservation at hs
  split_ifs at hs with hq hf
  · rw [TxTable.view, hp, Table.overlay_empty] at hs
    rcases hr : db₁.reservations.committed.row id with _ | r₀ <;> rw [hr] at hs <;>
      simp only [Option.some.injEq, Prod.mk.injEq] at hs <;> obtain ⟨rfl, rfl⟩ := hs
    · refine ⟨⟨h.1, h.2.write _ _⟩, ⟨userId, k, q, .active, e, hq⟩, rfl, ?_⟩
      ext1 id'
      simp only [TxTable.view, TxTable.write_committed, TxTable.write_pending_self, hp,
        Table.overlay_row, Table.set_row, Table.empty_row, hc]
      split_ifs <;> simp
    · trivial
  · simp only [Option.some.injEq, Prod.mk.injEq] at hs
    obtain ⟨rfl, rfl⟩ := hs
    trivial

theorem updatePoolReserve_inserting {id k : String} {q : ℤ} {db₁ : Db τ}
    (h : Inserting t id db db₁) :
    (updatePoolReserve t k q).wp (onOk fun _ db' => Inserting t id db db') db₁ := by
  intro r db' hs
  unfold updatePoolReserve at hs
  split at hs
  · simp only [Option.some.injEq, Prod.mk.injEq] at hs
    obtain ⟨rfl, rfl⟩ := hs
    exact h
  split_ifs at hs with hf hle
  · rcases Sync.bind_eq_some.1 hs with ⟨u, db₂, hw, hr⟩ | ⟨e, -, rfl⟩
    · simp only [Sync.pure_apply, Option.some.injEq, Prod.mk.injEq] at hr
      obtain ⟨rfl, rfl⟩ := hr
      unfold writePool at hw
      split at hw <;> simp only [Option.some.injEq, Prod.mk.injEq, reduceCtorEq, false_and] at hw
      obtain ⟨-, rfl⟩ := hw
      exact ⟨⟨h.1.1.write _ _, h.1.2⟩, h.2⟩
    · trivial
  · simp only [Option.some.injEq, Prod.mk.injEq] at hs
    obtain ⟨rfl, rfl⟩ := hs
    exact h

theorem selectPoolForUpdate_alone {k : String} (h : Alone t db)  :
    (selectPoolForUpdate t k).wp (onOk fun _ db' =>
      Alone t db' ∧ db'.reservations = db.reservations)
      db := by
  intro r db' hs
  unfold selectPoolForUpdate at hs
  split at hs
  · simp only [Option.some.injEq, Prod.mk.injEq] at hs
    obtain ⟨rfl, rfl⟩ := hs
    exact ⟨h, rfl⟩
  · split_ifs at hs
    simp only [Option.some.injEq, Prod.mk.injEq] at hs
    obtain ⟨rfl, rfl⟩ := hs
    exact ⟨⟨h.1.lock k, h.2⟩, rfl⟩

/-- A successful `reserveAtomic` has inserted an ACTIVE reservation under its id, and no other. -/
def Inserted (id : String) (db db' : Db τ) : Prop :=
  Quiet db' ∧ ∃ r : ReservationRow, r.status = .active ∧
    db'.reservations.committed = db.reservations.committed.set id r

theorem reserveAtomic_success (env : ReserveEnv) (t : τ) (k : String) (q : ℤ) (userId : String)
    (h : Quiet db) :
    (reserveAtomic env t k q userId).wp
      (onOk fun a db' => a.success = true → Inserted env.reservationId db db') db := by
  have hsold : ∀ (Q : Db τ → Prop) (db₁ : Db τ), (do
      Async.await ((tx t).rollbackTx env.onRollback)
      pure soldOut : Async (Db τ) DbError AtomicReservationResult).wp
      (post (fun a db' => a.success = true → Q db') fun _ _ => ∀ _ : DbError, True) db₁ := by
    intro Q db₁
    rw [Async.wp_await_bind]
    refine TxEnds.wp_rollbackTx fun r => ?_
    rcases r with e | u <;> simp [soldOut]
  unfold reserveAtomic
  refine TxEnds.wp_catch (TxEnds.wp_statement_bind (P := fun _ db₁ => db₁ = db)
    (fun _ => True) ?_ ?_ trivial
    (by simp))
  · exact (Sync.wp_pure ()).2 rfl
  rintro _ db₀ hdb₀
  rw [hdb₀]
  refine TxEnds.wp_statement_bind (fun _ => True) (selectPoolForUpdate_alone (h.alone t)) ?_ trivial
    (by simp)
  rintro (_ | n) db₁ ⟨h₁, hres⟩
  · exact hsold _ db₁
  simp only []
  split_ifs with hlt
  · exact hsold _ db₁
  have hcom : db₁.reservations.committed = db.reservations.committed := by rw [hres]
  refine TxEnds.wp_statement_bind (fun _ => True) (insertReservation_inserting h₁
    (hres ▸ h.pending_reservations t) hcom) ?_ trivial (by simp)
  intro _ db₂ h₂
  refine TxEnds.wp_statement_bind (fun _ => True) (updatePoolReserve_inserting h₂) ?_ trivial (by simp)
  intro n db₃ h₃
  split_ifs with hn
  · exact hsold _ db₃
  rw [Async.wp_await_bind, TxEnds.wp_commitTx]
  refine ⟨fun _ => ?_, fun _ => by simp, fun _ => by simp⟩
  simp only [post_ok, Async.wp_pure]
  intro _
  obtain ⟨hA, r, hr, hv⟩ := h₃
  exact ⟨hA.quiet_commit, r, hr, hv⟩

/-! ## What the expiry scan finds -/

/-- No transaction is open, and every reservation is ACTIVE. -/
def AllActive (db : Db τ) : Prop :=
  Quiet db ∧ ∀ id r, db.reservations.committed.row id = some r → r.status = .active

/-- The committed tables are the same. -/
def SameTables (db db' : Db τ) : Prop :=
  db'.pools.committed = db.pools.committed ∧ db'.reservations.committed = db.reservations.committed

theorem AllActive.expirable_eq (h : AllActive db) (t : τ) (now : Time) (scope : Option String) :
    expirable db t now scope = ∅ := by
  unfold expirable
  rw [h.1.view_reservations, Finset.filter_eq_empty_iff]
  rintro id - ⟨hany, -⟩
  rcases hr : db.reservations.committed.row id with _ | r <;> rw [hr] at hany
  · simp at hany
  · simp [ReservationRow.Expirable, h.2 id r hr] at hany

omit [DecidableEq τ] in
theorem AllActive.same (h : AllActive db) (hq : Quiet db') (hs : SameTables db db') :
    AllActive db' := ⟨hq, by rw [hs.2]; exact h.2⟩

omit [DecidableEq τ] in
theorem SameTables.trans {db₁ db₂ db₃ : Db τ} (h : SameTables db₁ db₂) (h' : SameTables db₂ db₃) :
    SameTables db₁ db₃ := ⟨h'.1.trans h.1, h'.2.trans h.2⟩

theorem Quiet.rollback (h : Quiet db) (t : τ) :
    Quiet (db.rollback t) ∧ SameTables db (db.rollback t) :=
  ⟨(h.alone t).quiet_rollback, rfl, rfl⟩

theorem Quiet.commit (h : Quiet db) (t : τ) :
    Quiet (db.commit t) ∧ SameTables db (db.commit t) := by
  refine ⟨(h.alone t).quiet_commit, ?_, h.view_reservations t⟩
  change db.pools.view t = _
  rw [TxTable.view, h.1]
  exact Table.overlay_empty _

/-- Where every reservation is ACTIVE the call expires none and changes nothing. -/
theorem expirePendingReservations_idle (env : ExpiryEnv) (t : τ) (batchSize : ℤ)
    (scope : Option String) (h : AllActive db) :
    (expirePendingReservations env t batchSize scope).wp
      (fun r db' => (Quiet db' ∧ SameTables db db') ∧ ∀ a, r = .ok a → a = ⟨0, 0, []⟩) db := by
  have hroll : ∀ db' : Db τ, db' = db → ∀ t : τ,
      Quiet (db'.rollback t) ∧ SameTables db (db'.rollback t) :=
    fun db' hdb t => hdb ▸ h.1.rollback t
  unfold expirePendingReservations
  refine TxEnds.wp_catch (TxEnds.wp_statement_bind (P := fun _ db₁ => db₁ = db) (· = db) ?_ ?_ rfl ?_)
  · exact (Sync.wp_pure ()).2 rfl
  · rintro _ db₀ hdb₀
    rw [hdb₀]
    refine TxEnds.wp_statement_bind (P := fun ids db₁ => ids = [] ∧ db₁ = db) (· = db) ?_ ?_ rfl ?_
    · intro r db' hs
      rcases selectExpired_eq_some hs with ⟨rfl, rfl⟩ | ⟨-, hb, rfl, rfl⟩
      · rfl
      · -- the batch comes from no rows
        have hnil : env.picked = [] := by
          refine List.eq_nil_iff_forall_not_mem.2 fun id hid => ?_
          have := hb.2.1 id hid
          rw [h.expirable_eq] at this
          simp at this
        rw [hnil]
        exact ⟨rfl, rfl⟩
    · rintro _ db₁ ⟨rfl, hdb₁⟩
      rw [hdb₁, if_pos rfl, Async.wp_await_bind, TxEnds.wp_commitTx]
      have hc := h.1.commit t
      refine ⟨fun _ => ?_, fun _ e => ?_, fun _ e => ?_⟩
      · simp only [post_ok, Async.wp_pure]
        exact ⟨hc, fun a ha => by simpa using ha.symm⟩
      · have hr := h.1.rollback t
        have hrr := hr.1.rollback t
        exact ⟨⟨hrr.1, hr.2.trans hrr.2⟩, by simp⟩
      · have hcr := hc.1.rollback t
        exact ⟨⟨hcr.1, hc.2.trans hcr.2⟩, by simp⟩
    · intro e db' hdb' e'
      have hr := hroll db' hdb' t
      have hrr := hr.1.rollback t
      exact ⟨⟨hrr.1, hr.2.trans hrr.2⟩, by simp⟩
  · intro e db' hdb' e'
    have hr := hroll db' hdb' t
    have hrr := hr.1.rollback t
    exact ⟨⟨hrr.1, hr.2.trans hrr.2⟩, by simp⟩

theorem ExpiredUntilNone.same (hx : ExpiredUntilNone db db') (h : AllActive db) :
    SameTables db db' := by
  induction hx with
  | last env t n _ _ hrun _ => exact (expirePendingReservations_idle env t n none h _ _ hrun).1.2
  | more env t n _ _ hrun _ _ ih =>
    obtain ⟨hq, hs⟩ := (expirePendingReservations_idle env t n none h _ _ hrun).1
    exact hs.trans (ih (h.same hq hs))

/-- A history of successful `reserveAtomic` calls leaves ACTIVE reservations under their ids. -/
theorem Reserved.allActive {calls : List (ReserveCall τ)} (hr : Reserved db calls db')
    (h : AllActive db) :
    AllActive db' ∧ ∀ c ∈ calls, ∃ r,
      db'.reservations.committed.row c.env.reservationId = some r := by
  induction hr with
  | nil => exact ⟨h, by simp⟩
  | snoc _ c hc hsucc ih =>
    obtain ⟨hA, hrows⟩ := ih
    obtain ⟨hq, r, hact, hres⟩ :=
      reserveAtomic_success c.env c.tx c.ticketTypeId c.quantity c.userId hA.1 _ _ hc hsucc
    refine ⟨⟨hq, fun id r' hr' => ?_⟩, fun c' hc' => ?_⟩
    · rw [hres, Table.set_row] at hr'
      split_ifs at hr' with hid
      · exact Option.some.inj hr' ▸ hact
      · exact hA.2 id r' hr'
    · rw [hres, Table.set_row]
      split_ifs with hid
      · exact ⟨r, rfl⟩
      · rcases List.mem_append.1 hc' with hc' | hc'
        · exact hrows c' hc'
        · rw [List.mem_singleton.1 hc'] at hid
          exact absurd rfl hid

theorem Reserved.eq_of_nil {calls : List (ReserveCall τ)} (hr : Reserved db calls db')
    (h : calls = []) : db' = db := by
  cases hr with
  | nil => rfl
  | snoc => simp at h

omit [DecidableEq τ] in
theorem allActive_ofTables (P : Table String PoolRow) :
    AllActive (Db.ofTables P .empty : Db τ) :=
  ⟨⟨rfl, rfl⟩, fun id r hr => by simp [Db.ofTables, TxTable.ofTable] at hr⟩

/-- The database answers: a call whose statements are all answered returns `expiredCount` 0. -/
theorem expirePendingReservations_answers (h : AllActive db) (t : τ) (now : Time) {batchSize : ℤ}
    (hb : 1 ≤ batchSize) : ∃ env db', env.now = now ∧
      (expirePendingReservations env t batchSize none).run db = some (.ok ⟨0, 0, []⟩, db') := by
  refine ⟨⟨now, [], [], .answered, .answered, .answered, fun _ => .answered, .answered,
    .answered⟩, db.commit t, rfl, ?_⟩
  have hsel : selectExpired t [] now (truthy none) batchSize db = some (.ok [], db) := by
    have hbatch : IsBatch (expirable db t now (truthy none))
      (expiryOf db t) batchSize.toNat [] := by
      simp [IsBatch, h.expirable_eq]
    unfold selectExpired
    rw [if_neg (by omega), if_pos hbatch]
    rfl
  simp [expirePendingReservations, Sync.tryCatch_apply, Sync.bind_apply, TxEnds.beginTx,
    TxEnds.statement, hsel,
    TxEnds.commitTx, tx]

omit [DecidableEq τ] in
/-- A clock later than every `expires_at`. -/
theorem exists_pastExpiry (db : Db τ) : ∃ now, PastExpiry db now := by
  obtain ⟨M, hM⟩ := Finset.exists_le (db.reservations.committed.keys.image fun id =>
    ((db.reservations.committed.row id).map ReservationRow.expiresAt).getD 0)
  refine ⟨M + 1, fun id r hr => ?_⟩
  have hle := hM r.expiresAt (Finset.mem_image.2 ⟨id, Table.mem_keys_of_row hr, by simp [hr]⟩)
  exact Int.lt_add_one_iff.2 hle

/-- From pools with all their seats available, and after any history of successful reservations,
expiring past every `expires_at` until nothing is left to expire ends, and brings the seats back if
and only if none were reserved. -/
theorem held_seats_come_back_iff [Inhabited τ] {P : Table String PoolRow} (hP : AllAvailable P)
    {calls : List (ReserveCall τ)} (hr : Reserved (Db.ofTables P .empty) calls db) :
    (∃ db', ExpiredUntilNone db db')
      ∧ ∀ db', ExpiredUntilNone db db' → (SeatsCameBack calls db' ↔ calls = []) := by
  obtain ⟨hA, hrows⟩ := hr.allActive (allActive_ofTables P)
  refine ⟨?_, fun db' hx => ?_⟩
  · obtain ⟨now, hnow⟩ := exists_pastExpiry db
    obtain ⟨env, db', henv, hrun⟩ := expirePendingReservations_answers hA default now le_rfl
    exact ⟨db', .last env default 1 le_rfl (henv ▸ hnow) hrun rfl⟩
  obtain ⟨hpools, hres⟩ := hx.same hA
  constructor
  · intro hback
    refine List.eq_nil_iff_forall_not_mem.2 fun c hc => ?_
    obtain ⟨r, hr'⟩ := hrows c hc
    obtain ⟨r', hr'', hexp⟩ := hback.expired c hc
    rw [hres, hr'] at hr''
    rw [← Option.some.inj hr'', hA.2 _ _ hr'] at hexp
    simp at hexp
  · rintro rfl
    obtain rfl := hr.eq_of_nil rfl
    refine ⟨by simp, fun k p hp => ?_⟩
    rw [hpools] at hp
    obtain ⟨hviol, ha⟩ := hP k p hp
    refine ⟨?_, ha⟩
    unfold PoolRow.violated at hviol
    split_ifs at hviol
    omega

/-- One seat, and one buyer who reserves it at time 0. -/
def lastSeat : Table String PoolRow := Table.empty.set "vip" ⟨1, 1, 0, 0⟩

def lastSeatCall : ReserveCall Unit :=
  ⟨⟨"r1", 0, .answered, .answered, .answered, .answered, .answered, .answered, .answered⟩, (),
    "vip", 1, "bob"⟩

theorem lastSeat_allAvailable : AllAvailable lastSeat := by
  intro k p hp
  obtain rfl : k = "vip" := by
    by_contra hk
    simp [lastSeat, Table.set_row, hk] at hp
  obtain rfl : p = ⟨1, 1, 0, 0⟩ := by simpa [lastSeat] using hp.symm
  decide

/-- The database once the seat is reserved. -/
def lastSeatReserved : Db Unit :=
  (((reserveAtomic lastSeatCall.env () "vip" 1 "bob").run (Db.ofTables lastSeat .empty)).get
    (by decide)).2

theorem lastSeat_reserved : Reserved (Db.ofTables lastSeat .empty)
    [lastSeatCall] lastSeatReserved :=
  .snoc (r := ⟨true, .reserved, some "r1"⟩) .nil lastSeatCall rfl rfl

/-- The seat is reserved, and some scans see it past its expiry. It does not come back. -/
theorem held_seats_come_back_iff_lastSeat :
    AllAvailable lastSeat ∧ Reserved (Db.ofTables lastSeat .empty) [lastSeatCall] lastSeatReserved
      ∧ (∃ db', ExpiredUntilNone lastSeatReserved db')
      ∧ ∀ db', ExpiredUntilNone lastSeatReserved db' → ¬ SeatsCameBack [lastSeatCall] db' := by
  obtain ⟨hex, hiff⟩ := held_seats_come_back_iff lastSeat_allAvailable lastSeat_reserved
  refine ⟨lastSeat_allAvailable, lastSeat_reserved, hex, fun db' hx hback => ?_⟩
  exact List.cons_ne_nil _ _ ((hiff db' hx).1 hback)

/-- An hour after its expiry the reserved seat has not come back. -/
theorem held_seat_stays_reserved :
    AllAvailable lastSeat ∧ Reserved (Db.ofTables lastSeat .empty) [lastSeatCall] lastSeatReserved
      ∧ ∃ db', ExpiredUntilNone lastSeatReserved db' ∧ ¬ SeatsCameBack [lastSeatCall] db' := by
  refine ⟨lastSeat_allAvailable, lastSeat_reserved, _, .last (r := ⟨0, 0, []⟩) ⟨3600000, [], [],
    .answered, .answered, .answered, fun _ => .answered, .answered, .answered⟩ () 1 (by decide) ?_
    (by rfl) rfl, fun hback => ?_⟩
  · intro id r hr
    have hkeys : lastSeatReserved.reservations.committed.keys = {"r1"} := by decide
    obtain rfl : id = "r1" := by simpa [hkeys] using Table.mem_keys_of_row hr
    obtain rfl := Option.some.inj hr
    decide
  · obtain ⟨h0, -⟩ := hback.pools "vip" ⟨1, 0, 1, 0⟩ (by rfl)
    exact absurd h0 (by decide)

end LaunchPad
