import LaunchPad.Basic
import LaunchPad.Lib.Async
import Mathlib.Tactic.SplitIfs

/-!
# The pool of the domain

The class `InventoryPool`: what its constructor checks, and the methods that move its quantities. A
method throws before it writes, or where the quantities no longer add up to the capacity after it
has written.
-/

namespace LaunchPad

open Interleave

/-- A `number`, as far as the checks see it: the integer it is, if it is one, and its text. -/
structure Number where
  integer : Option ℤ
  text : String
deriving DecidableEq

def Number.ofInt (n : ℤ) : Number := ⟨some n, toString n⟩

inductive InventoryError
  | error (message : String)
  | invalidCapacity (message : String)
  | insufficientInventory (message : String)
deriving DecidableEq

structure InventoryPool where
  ticketTypeId : String
  totalCapacity : ℤ
  availableQuantity : ℤ
  reservedQuantity : ℤ
  soldQuantity : ℤ
deriving DecidableEq

namespace InventoryPool

/-- The integer, if it is a positive one: `Number.isInteger(n) && n > 0`. -/
def positiveInteger (n : Number) : Option ℤ := n.integer.filter fun i => decide (0 < i)

theorem pos_of_positiveInteger {n : Number} {i : ℤ} (h : positiveInteger n = some i) : 0 < i := by
  simpa using (Option.filter_eq_some_iff.1 h).2

theorem integer_of_positiveInteger {n : Number} {i : ℤ} (h : positiveInteger n = some i) :
    n.integer = some i :=
  (Option.filter_eq_some_iff.1 h).1

/-- The constructor. -/
def create (ticketTypeId : String) (totalCapacity : Number) : Except InventoryError InventoryPool :=
  if Blank ticketTypeId then .error (.error "TicketType ID cannot be empty")
  else match positiveInteger totalCapacity with
    | none => .error (.invalidCapacity
      ("Total capacity must be a positive integer > 0. Received: " ++ totalCapacity.text))
    | some capacity => .ok ⟨ticketTypeId, capacity, capacity, 0, 0⟩

theorem create_ok {ticketTypeId : String} {totalCapacity : Number} {pool : InventoryPool}
    (h : create ticketTypeId totalCapacity = .ok pool) :
    ∃ n, positiveInteger totalCapacity = some n ∧ pool = ⟨ticketTypeId, n, n, 0, 0⟩ := by
  unfold create at h
  split_ifs at h
  split at h
  · cases h
  · rename_i n hn
    exact ⟨n, hn, (Except.ok.inj h).symm⟩

def assertCapacityInvariant : Sync InventoryPool InventoryError Unit := do
  let pool ← Sync.read id
  if pool.availableQuantity + pool.reservedQuantity + pool.soldQuantity ≠ pool.totalCapacity then
    throw (.error
      "Capacity invariant violated! Total capacity does not equal Available + Reserved + Sold.")
  else pure ()

/-- What the three methods have in common: the check of the argument, a refusal where there is not
enough, the move, and the check of the sum. -/
def moveQuantity (notPositive : String) (enoughFor : InventoryPool → ℤ)
    (refusal : InventoryPool → InventoryError) (moved : ℤ → InventoryPool → InventoryPool)
    (quantity : Number) : Sync InventoryPool InventoryError Unit :=
  match positiveInteger quantity with
  | none => throw (.error notPositive)
  | some q => do
    let pool ← Sync.read id
    if enoughFor pool < q then throw (refusal pool)
    else do
      Sync.modify (moved q)
      assertCapacityInvariant

def reserve (quantity : Number) : Sync InventoryPool InventoryError Unit :=
  moveQuantity "Reserve quantity must be a positive integer" availableQuantity
    (fun pool => .insufficientInventory ("Cannot reserve " ++ quantity.text ++ " tickets. Only "
      ++ toString pool.availableQuantity ++ " available."))
    (fun q pool => { pool with
      availableQuantity := pool.availableQuantity - q
      reservedQuantity := pool.reservedQuantity + q }) quantity

def release (quantity : Number) : Sync InventoryPool InventoryError Unit :=
  moveQuantity "Release quantity must be a positive integer" reservedQuantity
    (fun pool => .error ("Cannot release " ++ quantity.text ++ " tickets. Only "
      ++ toString pool.reservedQuantity ++ " reserved."))
    (fun q pool => { pool with
      reservedQuantity := pool.reservedQuantity - q
      availableQuantity := pool.availableQuantity + q }) quantity

def fulfill (quantity : Number) : Sync InventoryPool InventoryError Unit :=
  moveQuantity "Fulfill quantity must be a positive integer" reservedQuantity
    (fun pool => .error ("Cannot fulfill " ++ quantity.text ++ " tickets. Only "
      ++ toString pool.reservedQuantity ++ " reserved."))
    (fun q pool => { pool with
      reservedQuantity := pool.reservedQuantity - q
      soldQuantity := pool.soldQuantity + q }) quantity

end InventoryPool

/-- The calls on a pool. -/
inductive PoolCommand
  | reserve (quantity : Number)
  | release (quantity : Number)
  | fulfill (quantity : Number)
deriving DecidableEq

def PoolCommand.run : PoolCommand → Sync InventoryPool InventoryError Unit
  | .reserve quantity => InventoryPool.reserve quantity
  | .release quantity => InventoryPool.release quantity
  | .fulfill quantity => InventoryPool.fulfill quantity

/-- Calls one after another, up to the first that throws. -/
def InventoryPool.feed : List PoolCommand → Sync InventoryPool InventoryError Unit
  | [] => pure ()
  | command :: commands => do
    command.run
    feed commands

end LaunchPad
