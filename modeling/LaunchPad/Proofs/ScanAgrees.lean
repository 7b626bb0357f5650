import LaunchPad.Proofs.ExpiryCall
import LaunchPad.Reservation

/-!
# The scanner and the reservation

The rule for expiring a hold is written twice, in the WHERE clause of the scan and in
`Reservation.expire`. A call whose batch holds every row that is due expires just those
(`Scanned.expires_iff`). The scan asks for 'PENDING', and `expire` takes a reservation in payment
too, so the two part on the holds in payment that are past their `expiresAt`, and only there.
-/

namespace LaunchPad

open Interleave Rows

/-- The text a status is stored as. -/
def ReservationStatus.stored : ReservationStatus → RowStatus
  | .pending => .pending
  | .paymentPending => .paymentPending
  | .confirmed => .confirmed
  | .expired => .expired
  | .cancelled => .cancelled

/-- The row has the status and the `expires_at` of the reservation. -/
structure ReservationRow.Stores (row : ReservationRow) (r : Reservation) : Prop where
  status : row.status = r.status.stored
  expiresAt : row.expiresAt = r.expiresAt

variable {τ : Type} [DecidableEq τ] {t : τ} {db db' : Db τ}

/-- The row was not EXPIRED, and is. -/
def TurnsExpired (id : String) (db db' : Db τ) : Prop :=
  (∃ r, db.reservations.committed.row id = some r ∧ r.status ≠ .expired)
    ∧ ∃ r, db'.reservations.committed.row id = some r ∧ r.status = .expired

/-- The scan took the row to EXPIRED if and only if `expire` succeeds, on a clock that reads `now`
for the comparison and `later` for the message. -/
def AgreesWith (r : Reservation) (now later : Time) (id : String) (db db' : Db τ) : Prop :=
  TurnsExpired id db db' ↔ ∃ r', r.expire now later = .ok r'

variable {now : Time} {scope : Option String} {batchSize : ℤ} {ids : Finset String}
  {res : ExpiryResult} {id : String} {row : ReservationRow}

omit [DecidableEq τ] in
/-- A batch that holds every row that is due takes them all. -/
theorem Scanned.eq_eligible (h : Scanned now scope batchSize ids db res db')
    (hbatch : (eligible db.reservations.committed now scope).card ≤ batchSize) :
    ids = eligible db.reservations.committed now scope := by
  have hcard := h.card
  rw [min_eq_right hbatch] at hcard
  exact Finset.eq_of_subset_of_card_le h.due (by omega)

omit [DecidableEq τ] in
/-- The rows that turn EXPIRED are those that are due. -/
theorem Scanned.expires_iff (h : Scanned now scope batchSize ids db res db')
    (hbatch : (eligible db.reservations.committed now scope).card ≤ batchSize)
    (hrow : db.reservations.committed.row id = some row) :
    TurnsExpired id db db' ↔ row.Expirable now scope := by
  have hdue : id ∈ ids ↔ row.Expirable now scope := by
    rw [h.eq_eligible hbatch, mem_eligible, hrow]
    simp
  rw [TurnsExpired, h.reservations, expireRows, Table.mapRows_row, hrow]
  simp only [Option.map_some, Option.some.injEq, exists_eq_left', hdue]
  constructor
  · rintro ⟨hne, he⟩
    split_ifs at he with hexp
    · exact hexp
    · exact absurd he hne
  · intro hexp
    rw [if_pos hexp]
    exact ⟨by rw [hexp.1]; decide, rfl⟩

theorem Reservation.expire_isOk_iff {r : Reservation} {now later : Time} :
    (∃ r', r.expire now later = .ok r') ↔ r.Open ∧ r.expiresAt < now := by
  unfold Reservation.expire
  constructor
  · rintro ⟨r', h⟩
    split_ifs at h with hopen hnow
    exact ⟨hopen, not_le.1 hnow⟩
  · rintro ⟨hopen, hnow⟩
    exact ⟨_, by rw [if_neg (not_not.2 hopen), if_neg (not_le.2 hnow)]⟩

omit [DecidableEq τ] in
/-- On a hold in payment past its `expiresAt` the two part. -/
theorem Scanned.agrees_iff {r : Reservation} (h : Scanned now scope batchSize ids db res db')
    (hbatch : (eligible db.reservations.committed now scope).card ≤ batchSize)
    (hrow : db.reservations.committed.row id = some row) (hstores : row.Stores r)
    (hscope : scope = none ∨ scope = some row.ticketTypeId) (later : Time) :
    AgreesWith r now later id db db' ↔ ¬ (r.status = .paymentPending ∧ r.expiresAt < now) := by
  have hpending : row.status = .pending ↔ r.status = .pending := by
    rw [hstores.status]
    cases r.status <;> simp [ReservationStatus.stored]
  rw [AgreesWith, h.expires_iff hbatch hrow, Reservation.expire_isOk_iff, ReservationRow.Expirable,
    hpending, hstores.expiresAt, and_iff_left hscope, Reservation.Open]
  rcases hs : r.status <;> simp

/-- In every database where the row of a reservation is stored, and with a batch that holds every
row that is due, a call that returns agrees with `expire` unless the reservation is in payment and
past its `expiresAt`. Under the ledger there is such a call. -/
theorem scan_agrees_iff [Inhabited τ] {P : Table String PoolRow} {R : Table String ReservationRow}
    {r : Reservation} (hrow : R.row id = some row) (hstores : row.Stores r) (now later : Time)
    {ticketTypeId : Option String}
    (hscope : truthy ticketTypeId = none ∨ truthy ticketTypeId = some row.ticketTypeId)
    (hbatch : (eligible R now (truthy ticketTypeId)).card ≤ batchSize) :
    (∀ (env : ExpiryEnv) (t : τ) (res : ExpiryResult) (db' : Db τ), env.now = now →
      (expirePendingReservations env t batchSize ticketTypeId).run (Db.ofTables P R)
        = some (.ok res, db') →
      (AgreesWith r now later id (Db.ofTables P R) db'
        ↔ ¬ (r.status = .paymentPending ∧ r.expiresAt < now)))
      ∧ (SeatLedger P R → ∃ (env : ExpiryEnv) (t : τ) (res : ExpiryResult) (db' : Db τ),
        env.now = now ∧ (expirePendingReservations env t batchSize ticketTypeId).run
          (Db.ofTables P R) = some (.ok res, db')) := by
  have hquiet : Quiet (Db.ofTables P R : Db τ) := ⟨rfl, rfl⟩
  constructor
  · rintro env t res db' rfl hrun
    have hs := expirePendingReservations_scans env t batchSize ticketTypeId hquiet _ _ hrun
    exact hs.agrees_iff hbatch hrow hstores hscope later
  · intro hledger
    obtain ⟨env, res, db', hnow, hrun⟩ :=
      exists_scan hquiet (inv_ofTables hledger) default now ticketTypeId
        ((Int.natCast_nonneg _).trans hbatch)
    exact ⟨env, default, res, db', hnow, hrun⟩

theorem nonblank_ann : ¬ Blank "ann" := by decide

theorem nonblank_vip : ¬ Blank "vip" := by decide

/-- Ann's seat, which is held until 12. -/
def annHold (status : ReservationStatus) : Reservation where
  id := "r0"
  userId := "ann"
  ticketTypeId := "vip"
  quantity := 1
  createdAt := 0
  expiresAt := 12
  status := status
  id_nonblank := by decide
  userId_nonblank := nonblank_ann
  ticketTypeId_nonblank := nonblank_vip
  quantity_pos := Int.one_pos
  createdAt_lt := by decide

def annRow (status : RowStatus) : ReservationRow := ⟨"ann", "vip", 1, status, 12, Int.one_pos⟩

def annRows (status : RowStatus) : Table String ReservationRow :=
  Table.empty.set "r0" (annRow status)

theorem annRow_stores (status : ReservationStatus) :
    (annRow status.stored).Stores (annHold status) := ⟨rfl, rfl⟩

theorem annRows_ledger {status : RowStatus} (h : status = .pending ∨ status = .paymentPending) :
    SeatLedger vipPools (annRows status) := by
  rcases h with rfl | rfl <;> exact seatLedger_vipPools (by decide)

/-- At 13 the scan takes the row of a PENDING hold, and `expire` succeeds. -/
theorem scan_agrees_iff_vip :
    ∃ (env : ExpiryEnv) (t : Bool) (res : ExpiryResult) (db' : Db Bool), env.now = 13
      ∧ (expirePendingReservations env t 10 none).run (Db.ofTables vipPools (annRows .pending))
        = some (.ok res, db')
      ∧ TurnsExpired "r0" (Db.ofTables vipPools (annRows .pending)) db'
      ∧ AgreesWith (annHold .pending) 13 13 "r0" (Db.ofTables vipPools (annRows .pending)) db' := by
  have hbatch : ((eligible (annRows .pending) 13 (truthy none)).card : ℤ) ≤ 10 := by decide
  obtain ⟨hagrees, hcall⟩ := scan_agrees_iff (τ := Bool) (P := vipPools)
    (Table.set_row_self _ _ _) (annRow_stores .pending) 13 13 (.inl rfl) hbatch
  obtain ⟨env, t, res, db', hnow, hrun⟩ := hcall (annRows_ledger (.inl rfl))
  have hboth := (hagrees env t res db' hnow hrun).2 fun h => by cases h.1
  exact ⟨env, t, res, db', hnow, hrun, hboth.2 ⟨_, rfl⟩, hboth⟩

/-- A hold in payment, at 13: `expire` succeeds, and the scan leaves the row as it is. -/
theorem paying_hold_stays :
    (annHold .paymentPending).expire 13 13 = .ok (annHold .expired)
      ∧ ∃ (env : ExpiryEnv) (t : Bool) (res : ExpiryResult) (db' : Db Bool), env.now = 13
        ∧ (expirePendingReservations env t 10 none).run
          (Db.ofTables vipPools (annRows .paymentPending)) = some (.ok res, db')
        ∧ (eligible (annRows .paymentPending) 13 none).card ≤ 10
        ∧ ¬ AgreesWith (annHold .paymentPending) 13 13 "r0"
          (Db.ofTables vipPools (annRows .paymentPending)) db' := by
  have hquiet : Quiet (Db.ofTables vipPools (annRows .paymentPending) : Db Bool) := ⟨rfl, rfl⟩
  obtain ⟨env, res, db', hnow, hrun⟩ := exists_scan hquiet
    (inv_ofTables (annRows_ledger (.inr rfl))) true 13 none (show (0 : ℤ) ≤ 10 by decide)
  refine ⟨rfl, env, true, res, db', hnow, hrun, by decide, fun h => ?_⟩
  have hs := expirePendingReservations_scans env true 10 none hquiet _ _ hrun
  rw [hnow] at hs
  exact (hs.agrees_iff (by decide) (Table.set_row_self _ _ _) (annRow_stores .paymentPending)
    (.inl rfl) 13).1 h ⟨rfl, by decide⟩

end LaunchPad
