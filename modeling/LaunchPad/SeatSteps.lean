import LaunchPad.Inventory
import LaunchPad.Lib.Machine

/-!
# The calls on seats as a machine

Where a call stands is told by its next statement and what it has read. `SeatCall.move` is the
statement it makes there, and where it stands then; the statements themselves are those of
`Inventory`. Beside the calls, a PENDING hold may be introduced, with its seats moved from available
to reserved at once.
-/

namespace LaunchPad

open Interleave Rows

/-- Where a call stands: the statement it makes next, or what it has ended with. -/
inductive SeatPhase
  | begin
  | select
  | insert
  | update
  | commitReserve
  | reject
  | scan
  | mark (ids : List String)
  | release (n : ℕ) (rows : List ExpiredRow) (ticketTypeId : String) (qty : ℤ)
      (rest : List (String × ℤ))
  | commitExpiry (rows : List ExpiredRow)
  | catching (err : DbError)
  | ended (r : Except DbError SeatReply)
  | introduced
deriving DecidableEq

/-- The head of the loop over `capacityByTicketType`, before its `n`-th turn. -/
def SeatPhase.loop (n : ℕ) (rows : List ExpiredRow) : List (String × ℤ) → SeatPhase
  | [] => commitExpiry rows
  | (ticketTypeId, qty) :: rest => release n rows ticketTypeId qty rest

/-- What `expirePendingReservations` returns of the rows it expired. -/
def expiryResult (rows : List ExpiredRow) : ExpiryResult :=
  ⟨rows.length, (rows.map ExpiredRow.quantity).sum, rows.map ExpiredRow.id⟩

section Moves

variable {τ : Type} [DecidableEq τ]

open SeatPhase Machine

/-- The next statement of a call, and where it stands then. -/
def SeatCall.move (t : τ) : SeatCall → SeatPhase → Db τ → Option (Db τ × SeatPhase)
  | .reserveAtomic env _ _ _, .begin =>
    segment ((tx t).beginTx env.onBegin) (fun _ => .select) .catching
  | .reserveAtomic env ticketTypeId quantity _, .select =>
    segment ((tx t).statement env.onSelect (selectPoolForUpdate t ticketTypeId))
      (fun found => match found with
        | none => .reject
        | some availableQty => if availableQty < quantity then .reject else .insert) .catching
  | .reserveAtomic env ticketTypeId quantity userId, .insert =>
    segment ((tx t).statement env.onInsert (insertReservation t env.reservationId userId
      ticketTypeId quantity (env.now + 10 * 60 * 1000))) (fun _ => .update) .catching
  | .reserveAtomic env ticketTypeId quantity _, .update =>
    segment ((tx t).statement env.onUpdate (updatePoolReserve t ticketTypeId quantity))
      (fun rowCount => if rowCount = 0 then .reject else .commitReserve) .catching
  | .reserveAtomic env _ _ _, .commitReserve =>
    segment ((tx t).commitTx env.onCommit)
      (fun _ => .ended (.ok (.reserveAtomic ⟨true, .reserved, some env.reservationId⟩))) .catching
  | .reserveAtomic env _ _ _, .reject =>
    segment ((tx t).rollbackTx env.onRollback) (fun _ => .ended (.ok (.reserveAtomic soldOut)))
      .catching
  | .reserveAtomic env _ _ _, .catching err =>
    segment ((tx t).rollbackTx env.onCatch) (fun _ => .ended (.error err)) fun e => .ended (.error e)
  | .expirePendingReservations env _ _, .begin =>
    segment ((tx t).beginTx env.onBegin) (fun _ => .scan) .catching
  | .expirePendingReservations env batchSize ticketTypeId, .scan =>
    segment ((tx t).statement env.onSelect
      (selectExpired t env.picked env.now (truthy ticketTypeId) batchSize))
      (fun ids => if ids = [] then .commitExpiry [] else .mark ids) .catching
  | .expirePendingReservations env _ _, .mark ids =>
    segment ((tx t).statement env.onUpdate (markExpired t ids env.returned))
      (fun rows => loop 0 rows (capacityByTicketType rows)) .catching
  | .expirePendingReservations env _ _, .release n rows ticketTypeId qty rest =>
    segment ((tx t).statement (env.onRelease n) (releaseCapacity t ticketTypeId qty))
      (fun _ => loop (n + 1) rows rest) .catching
  | .expirePendingReservations env _ _, .commitExpiry rows =>
    segment ((tx t).commitTx env.onCommit)
      (fun _ => .ended (.ok (.expirePendingReservations (expiryResult rows)))) .catching
  | .expirePendingReservations env _ _, .catching err =>
    segment ((tx t).rollbackTx env.onCatch) (fun _ => .ended (.error err)) fun e => .ended (.error e)
  | _, _ => fun _ => none

/-- A PENDING reservation, introduced together with the move of its seats from available to
reserved. Where the rows are not free it waits. -/
def introduceHold (t : τ) (id userId ticketTypeId : String) (quantity : ℤ) (expiresAt : Time) :
    Sync (Db τ) DbError Unit := fun db =>
  if hq : 0 < quantity then
    if db.pools.Free t ticketTypeId ∧ db.reservations.Free t id then
      match db.pools.committed.row ticketTypeId, db.reservations.committed.row id with
      | some p, none =>
        if quantity ≤ p.availableQty then
          some (.ok (), { db with
            pools := (db.pools.write t ticketTypeId { p with
              availableQty := p.availableQty - quantity
              reservedQty := p.reservedQty + quantity }).commit t
            reservations := (db.reservations.write t id
              ⟨userId, ticketTypeId, quantity, .pending, expiresAt, hq⟩).commit t })
        else some (.error .statementFailed, db)
      | _, _ => some (.error .statementFailed, db)
    else none
  else some (.error .quantityCheck, db)

/-- What a thread does: a call, or the introduction of a hold. -/
inductive SeatAction
  | call (c : SeatCall)
  | introduceHold (id userId ticketTypeId : String) (quantity : ℤ) (expiresAt : Time)

def SeatAction.program (t : τ) : SeatAction → Async (Db τ) DbError (Option SeatReply)
  | .call c => do
    let r ← c.program t
    pure (some r)
  | .introduceHold id userId ticketTypeId quantity expiresAt => do
    Async.await (LaunchPad.introduceHold t id userId ticketTypeId quantity expiresAt)
    pure none

def SeatAction.move (t : τ) : SeatAction → SeatPhase → Db τ → Option (Db τ × SeatPhase)
  | .call c, p => c.move t p
  | .introduceHold id userId ticketTypeId quantity expiresAt, .begin =>
    segment (LaunchPad.introduceHold t id userId ticketTypeId quantity expiresAt)
      (fun _ => .introduced) fun _ => .introduced
  | .introduceHold .., _ => fun _ => none

/-- The actions as a machine. -/
def seats (actions : τ → SeatAction) : Machine τ SeatPhase (Db τ) where
  start _ := .begin
  move t := (actions t).move t

/-- One action for each transaction, none of them started. -/
def seatActions (db : Db τ) (actions : τ → SeatAction) :
    Config τ (Db τ) DbError (Option SeatReply) :=
  ⟨db, fun t => (actions t).program t⟩

end Moves

end LaunchPad
