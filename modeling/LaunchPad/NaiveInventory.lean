import LaunchPad.Inventory
import LaunchPad.Lib.StaleWrites

/-!
# Seats reserved without a lock

`NaiveInventoryRepository.reserveNaive` reads a pool and writes it back later, less what it has
taken. Each of its two statements is a transaction of its own. The database logs what they do.
-/

namespace LaunchPad

open Interleave Rows

structure NaiveReservationResult where
  success : Bool
  message : String
  readAvailableQty : Option ℤ
deriving DecidableEq

/-- What a call did to the pool of a ticket type. -/
inductive NaiveEvent (τ : Type)
  | read (t : τ) (ticketTypeId : String)
  | wrote (t : τ) (ticketTypeId : String) (requestedQty : ℤ)
deriving DecidableEq

structure NaiveDb (τ : Type) where
  pools : Table String PoolRow
  log : List (NaiveEvent τ)

/-- What the surroundings decide in one call. -/
structure NaiveEnv where
  onSelect : Fate
  onUpdate : Fate

structure NaiveCall where
  env : NaiveEnv
  ticketTypeId : String
  requestedQty : ℤ

section Calls

variable {τ : Type}

open Async (await)

/-- `SELECT available_qty, reserved_qty FROM inventory_pools WHERE ticket_type_id = $1` -/
def selectPool (t : τ) (ticketTypeId : String) : Sync (NaiveDb τ) DbError (Option (ℤ × ℤ)) :=
  fun db =>
    match db.pools.row ticketTypeId with
    | none => some (.ok none, db)
    | some p => some (.ok (some (p.availableQty, p.reservedQty)),
        { db with log := db.log ++ [.read t ticketTypeId] })

/-- `UPDATE inventory_pools SET available_qty = $1, reserved_qty = $2 WHERE ticket_type_id = $3`,
under the CHECK constraints. -/
def updatePool (t : τ) (ticketTypeId : String) (requestedQty newAvailable newReserved : ℤ) :
    Sync (NaiveDb τ) DbError Unit := fun db =>
  match db.pools.row ticketTypeId with
  | none => some (.ok (), db)
  | some p =>
    let p' := { p with availableQty := newAvailable, reservedQty := newReserved }
    match p'.violated with
    | some c => some (.error (.poolCheck c), db)
    | none => some (.ok (),
        { pools := db.pools.set ticketTypeId p'
          log := db.log ++ [.wrote t ticketTypeId requestedQty] })

def reserveNaive (env : NaiveEnv) (t : τ) (ticketTypeId : String) (requestedQty : ℤ) :
    Async (NaiveDb τ) DbError NaiveReservationResult := do
  match ← await (autocommit .statementFailed env.onSelect (selectPool t ticketTypeId)) with
  | none => pure ⟨false, "TicketType not found", none⟩
  | some (availableQty, reservedQty) =>
    if availableQty < requestedQty then
      pure ⟨false, "Insufficient inventory", some availableQty⟩
    else do
      -- ten milliseconds, in which others run
      await (pure ())
      let newAvailable := availableQty - requestedQty
      let newReserved := reservedQty + requestedQty
      await (autocommit .statementFailed env.onUpdate
        (updatePool t ticketTypeId requestedQty newAvailable newReserved))
      pure ⟨true, "Reserved successfully", some availableQty⟩

/-- The calls, none of which has started. -/
def naiveCalls (pools : Table String PoolRow) (calls : τ → NaiveCall) :
    Config τ (NaiveDb τ) DbError NaiveReservationResult :=
  ⟨⟨pools, []⟩, fun t =>
    reserveNaive (calls t).env t (calls t).ticketTypeId (calls t).requestedQty⟩

/-- What a statement does at the cell `available_qty` of a pool. -/
def NaiveEvent.access (ticketTypeId : String) :
    NaiveEvent τ → Option (StaleWrites.Access τ ℤ)
  | .read t k => if k = ticketTypeId then some (.read t) else none
  | .wrote t k requestedQty => if k = ticketTypeId then some (.write t requestedQty) else none

def accesses (ticketTypeId : String) (log : List (NaiveEvent τ)) :
    List (StaleWrites.Access τ ℤ) := log.filterMap (NaiveEvent.access ticketTypeId)

end Calls

end LaunchPad
