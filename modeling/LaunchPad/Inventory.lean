import LaunchPad.Basic
import LaunchPad.Lib.Batch
import LaunchPad.Lib.Table
import LaunchPad.Lib.Transaction
import Mathlib.Algebra.Ring.Int.Defs
import Mathlib.Data.List.Perm.Basic
import Mathlib.Data.List.Pairwise

/-!
# Seats in PostgreSQL

The tables `inventory_pools` and `reservations` with the constraints their migrations declare, and
the two transactions that move seats between them: `PostgresInventoryRepository.reserveAtomic`
and `ReservationExpiryService.expirePendingReservations`, one segment for each SQL statement.

The database is at READ COMMITTED: a statement sees the committed rows and its own transaction's
versions, a row lock is held to the end of the transaction, and a statement that needs a row
another transaction has locked waits. A statement that fails aborts its transaction at once.
What the surroundings decide in one call (the ids drawn, the clock, which statements fail, the
order rows come back in) is the call's environment.
-/

namespace LaunchPad

open Interleave Rows

/-- The texts `reservations.status` holds. The column is a VARCHAR, so other texts fit. -/
inductive RowStatus
  | active
  | pending
  | paymentPending
  | confirmed
  | expired
  | cancelled
  | other (text : String)
deriving DecidableEq

/-- The reservation still holds its seats. -/
def RowStatus.HoldsSeats : RowStatus → Prop
  | .active | .pending | .paymentPending => True
  | _ => False

instance : DecidablePred RowStatus.HoldsSeats := fun s => by
  cases s <;> simp only [RowStatus.HoldsSeats] <;> infer_instance

/-- A row of `reservations`. -/
structure ReservationRow where
  userId : String
  ticketTypeId : String
  quantity : ℤ
  status : RowStatus
  expiresAt : Time
  /-- `CHECK (quantity > 0)` -/
  quantity_pos : 0 < quantity
deriving DecidableEq

/-- A row of `inventory_pools`. -/
structure PoolRow where
  totalCapacity : ℤ
  availableQty : ℤ
  reservedQty : ℤ
  soldQty : ℤ
deriving DecidableEq

/-- The CHECK constraints of `inventory_pools`. -/
inductive PoolCheck
  | checkCapacityBalance
  | totalCapacity
  | availableQty
  | reservedQty
  | soldQty
deriving DecidableEq

/-- The constraint a new version of a pool row breaks, if any. -/
def PoolRow.violated (p : PoolRow) : Option PoolCheck :=
  if p.availableQty + p.reservedQty + p.soldQty ≠ p.totalCapacity then some .checkCapacityBalance
  else if p.totalCapacity ≤ 0 then some .totalCapacity
  else if p.availableQty < 0 then some .availableQty
  else if p.reservedQty < 0 then some .reservedQty
  else if p.soldQty < 0 then some .soldQty
  else none

inductive DbError
  | statementFailed
  | poolCheck (c : PoolCheck)
  | quantityCheck
  | duplicateKey
  | negativeLimit
deriving DecidableEq

/-- What the statements that return seats to a pool did, and the CHECKs that fired. -/
inductive PoolEvent
  | released (before after : PoolRow) (qty : ℤ)
  | checkFired (c : PoolCheck)
deriving DecidableEq

/-- The database, with transactions named by `τ`. -/
structure Db (τ : Type) where
  pools : TxTable τ String PoolRow
  reservations : TxTable τ String ReservationRow
  poolLog : List PoolEvent

namespace Db

variable {τ : Type} [DecidableEq τ]

/-- The database with these committed rows and no transaction open. -/
def ofTables (pools : Table String PoolRow) (reservations : Table String ReservationRow) : Db τ :=
  ⟨.ofTable pools, .ofTable reservations, []⟩

def rollback (db : Db τ) (t : τ) : Db τ :=
  { db with pools := db.pools.rollback t, reservations := db.reservations.rollback t }

def commit (db : Db τ) (t : τ) : Db τ :=
  { db with pools := db.pools.commit t, reservations := db.reservations.commit t }

end Db

section Statements

variable {τ : Type} [DecidableEq τ] {α : Type}

/-- Transaction `t`. -/
def tx (t : τ) : TxEnds (Db τ) DbError := ⟨(·.commit t), (·.rollback t), .statementFailed⟩

/-- A new version of a pool row, under the CHECK constraints. -/
def writePool (t : τ) (ticketTypeId : String) (p : PoolRow) : Sync (Db τ) DbError Unit := fun db =>
  match p.violated with
  | some c => some (.error (.poolCheck c), { db with poolLog := db.poolLog ++ [.checkFired c] })
  | none => some (.ok (), { db with pools := db.pools.write t ticketTypeId p })

/-! ## The statements of `reserveAtomic` -/

/-- `SELECT available_qty, reserved_qty FROM inventory_pools WHERE ticket_type_id = $1 FOR UPDATE` -/
def selectPoolForUpdate (t : τ) (ticketTypeId : String) : Sync (Db τ) DbError (Option ℤ) :=
  fun db =>
    match (db.pools.view t).row ticketTypeId with
    | none => some (.ok none, db)
    | some p =>
      if db.pools.Free t ticketTypeId then
        some (.ok (some p.availableQty), { db with pools := db.pools.lock t ticketTypeId })
      else none

/-- `INSERT INTO reservations (...) VALUES ($1, $2, $3, $4, 'ACTIVE', $5)` -/
def insertReservation (t : τ) (id userId ticketTypeId : String) (quantity : ℤ) (expiresAt : Time) :
    Sync (Db τ) DbError Unit := fun db =>
  if hq : 0 < quantity then
    if db.reservations.Free t id then
      match (db.reservations.view t).row id with
      | some _ => some (.error .duplicateKey, db)
      | none => some (.ok (), { db with
          reservations := db.reservations.write t id
            ⟨userId, ticketTypeId, quantity, .active, expiresAt, hq⟩ })
    else none
  else some (.error .quantityCheck, db)

/-- `UPDATE inventory_pools SET available_qty = available_qty - $1, reserved_qty = reserved_qty + $1
WHERE ticket_type_id = $2 AND available_qty >= $1`, with its row count. -/
def updatePoolReserve (t : τ) (ticketTypeId : String) (quantity : ℤ) : Sync (Db τ) DbError ℕ :=
  fun db =>
    match (db.pools.view t).row ticketTypeId with
    | none => some (.ok 0, db)
    | some p =>
      if db.pools.Free t ticketTypeId then
        if quantity ≤ p.availableQty then
          (do
            writePool t ticketTypeId { p with
              availableQty := p.availableQty - quantity
              reservedQty := p.reservedQty + quantity }
            pure 1 : Sync (Db τ) DbError ℕ) db
        else some (.ok 0, db)
      else none

/-! ## The statements of `expirePendingReservations` -/

/-- The WHERE clause of the expiry scan. -/
def ReservationRow.Expirable (r : ReservationRow) (now : Time) (scope : Option String) : Prop :=
  r.status = .pending ∧ r.expiresAt < now ∧ (scope = none ∨ scope = some r.ticketTypeId)

instance (r : ReservationRow) (now : Time) (scope : Option String) :
    Decidable (r.Expirable now scope) := inferInstanceAs (Decidable (_ ∧ _ ∧ _))

/-- The rows the scan may take: those it selects and no other transaction has locked. -/
def expirable (db : Db τ) (t : τ) (now : Time) (scope : Option String) : Finset String :=
  (db.reservations.view t).keys.filter fun id =>
    ((db.reservations.view t).row id).any (fun r => decide (r.Expirable now scope)) = true
      ∧ db.reservations.Free t id

def expiryOf (db : Db τ) (t : τ) (id : String) : Time :=
  (((db.reservations.view t).row id).map ReservationRow.expiresAt).getD 0

/-- The locks of these rows go to `t`. -/
def lockReservations (t : τ) (ids : List String) (V : TxTable τ String ReservationRow) :
    TxTable τ String ReservationRow :=
  ids.foldl (fun V id => V.lock t id) V

/-- The scan, with `ORDER BY expires_at ASC LIMIT batchSize FOR UPDATE SKIP LOCKED`. The environment
says which of the possible answers the database gives. -/
def selectExpired (t : τ) (picked : List String) (now : Time) (scope : Option String)
    (batchSize : ℤ) : Sync (Db τ) DbError (List String) := fun db =>
  if batchSize < 0 then some (.error .negativeLimit, db)
  else if IsBatch (expirable db t now scope) (expiryOf db t) batchSize.toNat picked then
    some (.ok picked, { db with reservations := lockReservations t picked db.reservations })
  else none

/-- What the expiry update returns of a row. -/
structure ExpiredRow where
  id : String
  ticketTypeId : String
  quantity : ℤ
deriving DecidableEq

/-- The rows `UPDATE ... WHERE id = ANY(ids) AND status = 'PENDING'` changes. -/
def pendingAmong (db : Db τ) (t : τ) (ids : List String) : List String :=
  ids.filter fun id =>
    ((db.reservations.view t).row id).any fun r => decide (r.status = .pending)

/-- The rows with these ids, each once, as `RETURNING` gives them. -/
def returning (db : Db τ) (t : τ) (ids : List String) : List ExpiredRow :=
  ids.filterMap fun id =>
    ((db.reservations.view t).row id).map fun r => ⟨id, r.ticketTypeId, r.quantity⟩

def expireRow (t : τ) (V : TxTable τ String ReservationRow) (id : String) :
    TxTable τ String ReservationRow :=
  match (V.view t).row id with
  | none => V
  | some r => V.write t id { r with status := .expired }

/-- `UPDATE reservations SET status = 'EXPIRED' WHERE id = ANY($1) AND status = 'PENDING'
RETURNING id, ticket_type_id, quantity`. The environment says in which order the rows return. -/
def markExpired (t : τ) (ids returned : List String) : Sync (Db τ) DbError (List ExpiredRow) :=
  fun db =>
    if returned.Perm (pendingAmong db t ids) ∧ ∀ id ∈ returned, db.reservations.Free t id then
      some (.ok (returning db t returned),
        { db with reservations := returned.foldl (expireRow t) db.reservations })
    else none

/-- `UPDATE inventory_pools SET available_qty = LEAST(total_capacity, available_qty + $1),
reserved_qty = GREATEST(0, reserved_qty - $1) WHERE ticket_type_id = $2` -/
def releaseCapacity (t : τ) (ticketTypeId : String) (qty : ℤ) : Sync (Db τ) DbError Unit :=
  fun db =>
    match (db.pools.view t).row ticketTypeId with
    | none => some (.ok (), db)
    | some p =>
      if db.pools.Free t ticketTypeId then
        let p' := { p with
          availableQty := min p.totalCapacity (p.availableQty + qty)
          reservedQty := max 0 (p.reservedQty - qty) }
        writePool t ticketTypeId p' { db with poolLog := db.poolLog ++ [.released p p' qty] }
      else none

end Statements

/-! ## `PostgresInventoryRepository.reserveAtomic` -/

inductive ReservationMessage
  | reserved
  | soldOut
  | error
deriving DecidableEq

structure AtomicReservationResult where
  success : Bool
  message : ReservationMessage
  reservationId : Option String
deriving DecidableEq

/-- What the surroundings decide in one `reserveAtomic` call. -/
structure ReserveEnv where
  reservationId : String
  now : Time
  onBegin : Fate
  onSelect : Fate
  onInsert : Fate
  onUpdate : Fate
  onCommit : Fate
  onRollback : Fate
  onCatch : Fate

def soldOut : AtomicReservationResult := ⟨false, .soldOut, none⟩

section Calls

variable {τ : Type} [DecidableEq τ]

open Async (await)

def reserveAtomic (env : ReserveEnv) (t : τ) (ticketTypeId : String) (quantity : ℤ)
    (userId : String) : Async (Db τ) DbError AtomicReservationResult :=
  tryCatch
    (do
      await ((tx t).beginTx env.onBegin)
      match ← await ((tx t).statement env.onSelect (selectPoolForUpdate t ticketTypeId)) with
      | none => do
        await ((tx t).rollbackTx env.onRollback)
        pure soldOut
      | some availableQty =>
        if availableQty < quantity then do
          await ((tx t).rollbackTx env.onRollback)
          pure soldOut
        else do
          let expiresAt := env.now + 10 * 60 * 1000
          await ((tx t).statement env.onInsert
            (insertReservation t env.reservationId userId ticketTypeId quantity expiresAt))
          let rowCount ← await ((tx t).statement env.onUpdate
            (updatePoolReserve t ticketTypeId quantity))
          if rowCount = 0 then do
            await ((tx t).rollbackTx env.onRollback)
            pure soldOut
          else do
            await ((tx t).commitTx env.onCommit)
            pure ⟨true, .reserved, some env.reservationId⟩)
    fun err => do
      await ((tx t).rollbackTx env.onCatch)
      throw err

/-! ## `ReservationExpiryService.expirePendingReservations` -/

structure ExpiryResult where
  expiredCount : ℕ
  releasedCapacity : ℤ
  processedIds : List String
deriving DecidableEq

/-- What the surroundings decide in one `expirePendingReservations` call. -/
structure ExpiryEnv where
  now : Time
  picked : List String
  returned : List String
  onBegin : Fate
  onSelect : Fate
  onUpdate : Fate
  onRelease : ℕ → Fate
  onCommit : Fate
  onCatch : Fate

/-- `capacityByTicketType.set(t, (capacityByTicketType.get(t) || 0) + qty)`: a new key comes last. -/
def addCapacity : List (String × ℤ) → String → ℤ → List (String × ℤ)
  | [], t, qty => [(t, qty)]
  | (k, v) :: m, t, qty => if k = t then (k, v + qty) :: m else (k, v) :: addCapacity m t qty

def capacityByTicketType (rows : List ExpiredRow) : List (String × ℤ) :=
  rows.foldl (fun m r => addCapacity m r.ticketTypeId r.quantity) []

/-- The loop over `capacityByTicketType.entries()`; `n` numbers its statements. -/
def releaseAll (env : ExpiryEnv) (t : τ) : ℕ → List (String × ℤ) → Async (Db τ) DbError Unit
  | _, [] => pure ()
  | n, (ticketTypeId, qty) :: m => do
    await ((tx t).statement (env.onRelease n) (releaseCapacity t ticketTypeId qty))
    releaseAll env t (n + 1) m

def expirePendingReservations (env : ExpiryEnv) (t : τ) (batchSize : ℤ)
    (ticketTypeId : Option String) : Async (Db τ) DbError ExpiryResult :=
  tryCatch
    (do
      await ((tx t).beginTx env.onBegin)
      let candidateIds ← await ((tx t).statement env.onSelect
        (selectExpired t env.picked env.now (truthy ticketTypeId) batchSize))
      if candidateIds = [] then do
        await ((tx t).commitTx env.onCommit)
        pure ⟨0, 0, []⟩
      else do
        let rows ← await ((tx t).statement env.onUpdate (markExpired t candidateIds env.returned))
        releaseAll env t 0 (capacityByTicketType rows)
        await ((tx t).commitTx env.onCommit)
        pure ⟨rows.length, (rows.map ExpiredRow.quantity).sum, rows.map ExpiredRow.id⟩)
    fun err => do
      await ((tx t).rollbackTx env.onCatch)
      throw err

/-! ## Calls side by side -/

inductive SeatCall
  | reserveAtomic (env : ReserveEnv) (ticketTypeId : String) (quantity : ℤ) (userId : String)
  | expirePendingReservations (env : ExpiryEnv) (batchSize : ℤ) (ticketTypeId : Option String)

inductive SeatReply
  | reserveAtomic (r : AtomicReservationResult)
  | expirePendingReservations (r : ExpiryResult)
deriving DecidableEq

/-- The call, in a transaction of its own. -/
def SeatCall.program (t : τ) : SeatCall → Async (Db τ) DbError SeatReply
  | .reserveAtomic env ticketTypeId quantity userId => do
    let r ← LaunchPad.reserveAtomic env t ticketTypeId quantity userId
    pure (.reserveAtomic r)
  | .expirePendingReservations env batchSize ticketTypeId => do
    let r ← LaunchPad.expirePendingReservations env t batchSize ticketTypeId
    pure (.expirePendingReservations r)

/-- One call for each transaction, none of them started. -/
def seatCalls (db : Db τ) (calls : τ → SeatCall) : Config τ (Db τ) DbError SeatReply :=
  ⟨db, fun t => (calls t).program t⟩

end Calls

/-! ## The ledger -/

/-- The seats of a ticket type that a reservation holds. -/
def seatsHeld (ticketTypeId : String) (r : ReservationRow) : ℤ :=
  if r.ticketTypeId = ticketTypeId ∧ r.status.HoldsSeats then r.quantity else 0

/-- A pool row accounts for its seats, `held` of them in reservations. -/
structure PoolRow.Accounts (p : PoolRow) (held : ℤ) : Prop where
  balance : p.availableQty + p.reservedQty + p.soldQty = p.totalCapacity
  available_nonneg : 0 ≤ p.availableQty
  reserved_nonneg : 0 ≤ p.reservedQty
  sold_nonneg : 0 ≤ p.soldQty
  reserved : p.reservedQty = held

/-- Every pool accounts for its seats, its reserved ones being those the reservations hold. -/
def SeatLedger (pools : Table String PoolRow) (reservations : Table String ReservationRow) : Prop :=
  ∀ ticketTypeId p, pools.row ticketTypeId = some p →
    p.Accounts (reservations.sum (seatsHeld ticketTypeId))

/-- Returning seats changed the two quantities by exactly what was returned: neither LEAST nor
GREATEST bit, and no CHECK fired. -/
def PoolEvent.Exact : PoolEvent → Prop
  | .released before after qty =>
    after.availableQty = before.availableQty + qty ∧ after.reservedQty = before.reservedQty - qty
  | .checkFired _ => False

/-! ## Histories -/

section Histories

variable {τ : Type} [DecidableEq τ]

structure ReserveCall (τ : Type) where
  env : ReserveEnv
  tx : τ
  ticketTypeId : String
  quantity : ℤ
  userId : String

/-- These `reserveAtomic` calls ran one after another, and each succeeded. -/
inductive Reserved (db : Db τ) : List (ReserveCall τ) → Db τ → Prop
  | nil : Reserved db [] db
  | snoc {calls : List (ReserveCall τ)} {db₁ db₂ : Db τ} {r : AtomicReservationResult}
      (h : Reserved db calls db₁) (c : ReserveCall τ)
      (hc : (reserveAtomic c.env c.tx c.ticketTypeId c.quantity c.userId).run db₁
        = some (.ok r, db₂)) (hr : r.success = true) : Reserved db (calls ++ [c]) db₂

/-- The clock is past the `expires_at` of every reservation. -/
def PastExpiry (db : Db τ) (now : Time) : Prop :=
  ∀ id r, db.reservations.committed.row id = some r → r.expiresAt < now

/-- `expirePendingReservations` is called, past every `expires_at` and with any batch size from 1
on, until it returns `expiredCount` 0. A call that throws is followed by another. -/
inductive ExpiredUntilNone : Db τ → Db τ → Prop
  | last {db db' : Db τ} {r : ExpiryResult} (env : ExpiryEnv) (t : τ) (batchSize : ℤ)
      (hb : 1 ≤ batchSize) (hnow : PastExpiry db env.now)
      (h : (expirePendingReservations env t batchSize none).run db = some (.ok r, db'))
      (hr : r.expiredCount = 0) : ExpiredUntilNone db db'
  | more {db db₁ db' : Db τ} {r : Except DbError ExpiryResult} (env : ExpiryEnv) (t : τ)
      (batchSize : ℤ) (hb : 1 ≤ batchSize) (hnow : PastExpiry db env.now)
      (h : (expirePendingReservations env t batchSize none).run db = some (r, db₁))
      (hr : ∀ a, r = .ok a → a.expiredCount ≠ 0) (hmore : ExpiredUntilNone db₁ db') :
      ExpiredUntilNone db db'

/-- The reservations of these calls are EXPIRED, and every pool is all available again. -/
structure SeatsCameBack (calls : List (ReserveCall τ)) (db : Db τ) : Prop where
  expired : ∀ c ∈ calls, ∃ r, db.reservations.committed.row c.env.reservationId = some r
    ∧ r.status = .expired
  pools : ∀ k p, db.pools.committed.row k = some p →
    p.reservedQty = 0 ∧ p.availableQty = p.totalCapacity

/-- The CHECKs hold of every pool, and all its seats are available. -/
def AllAvailable (pools : Table String PoolRow) : Prop :=
  ∀ k p, pools.row k = some p → p.violated = none ∧ p.availableQty = p.totalCapacity

end Histories

end LaunchPad
