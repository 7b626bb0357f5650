import LaunchPad.Inventory

/-!
# Reservations that fail on purpose

`PostgresInventoryRepository.reserveWithInjectedError` and `reserveWithFaultBetweenInsertAndUpdate`
throw in the middle of their transactions, after what they have changed, so that the tests can tell
that nothing of it stays.
-/

namespace LaunchPad

open Interleave Rows

/-- What such a call throws: an error of the database, or the one that is injected. -/
inductive FaultError
  | database (e : DbError)
  | injected (message : String)
deriving DecidableEq

/-- What the surroundings decide in one call. -/
structure FaultEnv where
  reservationId : String
  now : Time
  onBegin : Fate
  onSelect : Fate
  onChange : Fate
  onCatch : Fate

section Calls

variable {τ : Type} [DecidableEq τ]

open Async (await)

/-- `UPDATE inventory_pools SET available_qty = available_qty - 1, reserved_qty = reserved_qty + 1
WHERE ticket_type_id = $1` -/
def deductOne (t : τ) (ticketTypeId : String) : Sync (Db τ) DbError Unit := fun db =>
  match (db.pools.view t).row ticketTypeId with
  | none => some (.ok (), db)
  | some p =>
    if db.pools.Free t ticketTypeId then
      writePool t ticketTypeId { p with
        availableQty := p.availableQty - 1
        reservedQty := p.reservedQty + 1 } db
    else none

/-- A transaction that locks the pool row, changes something, and throws. -/
def faultyTransaction (env : FaultEnv) (t : τ) (ticketTypeId : String)
    (change : Sync (Db τ) DbError Unit) (message : String) : Async (Db τ) FaultError Empty :=
  tryCatch
    (do
      (await ((tx t).beginTx env.onBegin)).mapError .database
      let _ ← (await ((tx t).statement env.onSelect
        (selectPoolForUpdate t ticketTypeId))).mapError .database
      (await ((tx t).statement env.onChange change)).mapError .database
      throw (.injected message))
    fun err => do
      (await ((tx t).rollbackTx env.onCatch)).mapError .database
      throw err

def reserveWithInjectedError (env : FaultEnv) (t : τ) (ticketTypeId : String) :
    Async (Db τ) FaultError Empty :=
  faultyTransaction env t ticketTypeId (deductOne t ticketTypeId)
    "SIMULATED_NETWORK_FAULT_MID_TRANSACTION"

def reserveWithFaultBetweenInsertAndUpdate (env : FaultEnv) (t : τ) (ticketTypeId userId : String) :
    Async (Db τ) FaultError Empty :=
  let expiresAt := env.now + 10 * 60 * 1000
  faultyTransaction env t ticketTypeId
    (insertReservation t env.reservationId userId ticketTypeId 1 expiresAt)
    "CRASH_BETWEEN_INSERT_AND_UPDATE"

/-- A call that moves seats, or one that fails on purpose. -/
inductive FaultCall
  | seats (call : SeatCall)
  | reserveWithInjectedError (env : FaultEnv) (ticketTypeId : String)
  | reserveWithFaultBetweenInsertAndUpdate (env : FaultEnv) (ticketTypeId userId : String)

def FaultCall.program (t : τ) : FaultCall → Async (Db τ) FaultError SeatReply
  | .seats call => (call.program t).mapError .database
  | .reserveWithInjectedError env ticketTypeId => do
    let r ← LaunchPad.reserveWithInjectedError env t ticketTypeId
    nomatch r
  | .reserveWithFaultBetweenInsertAndUpdate env ticketTypeId userId => do
    let r ← LaunchPad.reserveWithFaultBetweenInsertAndUpdate env t ticketTypeId userId
    nomatch r

omit [DecidableEq τ] in
/-- The call fails on purpose. -/
def FaultCall.Injects : FaultCall → Prop
  | .seats _ => False
  | _ => True

instance : DecidablePred FaultCall.Injects
  | .seats _ => .isFalse id
  | .reserveWithInjectedError _ _ => .isTrue trivial
  | .reserveWithFaultBetweenInsertAndUpdate _ _ _ => .isTrue trivial

/-- The calls, none of which has started. -/
def faultCalls (pools : Table String PoolRow) (reservations : Table String ReservationRow)
    (calls : τ → FaultCall) : Config τ (Db τ) FaultError SeatReply :=
  ⟨.ofTables pools reservations, fun t => (calls t).program t⟩

end Calls

end LaunchPad
