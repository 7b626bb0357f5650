import LaunchPad.Catalog
import LaunchPad.Inventory

/-!
# Creating an event

`CreateEventUseCase` builds the aggregate and a pool for each ticket type it is asked for, and
`PostgresEventRepository.save` inserts their rows in one transaction. The aggregate keeps one ticket
type for each id, the last, and a row that is there already is left as it is.

The key of a row is the text the database has of its id, as `uuid` reads it. A transaction sees its
own rows, and they are the committed ones when it has committed.
-/

namespace LaunchPad

open Interleave Rows

/-- An entry of the request; an id that is missing is drawn. -/
structure TicketTypeRequestDTO where
  id : Option String
  name : String
  priceCents : Number
  currency : Option String
  capacity : Number
deriving DecidableEq

/-- `saleStartAt` and `saleEndAt` are what `new Date` reads of the texts, and `ticketTypes` is there
where it is an array. -/
structure CreateEventRequestDTO where
  organizerId : String
  title : String
  saleStartAt : Option Time
  saleEndAt : Option Time
  ticketTypes : Option (List TicketTypeRequestDTO)
deriving DecidableEq

inductive CreateError
  | catalog (e : CatalogError)
  /-- An `InvalidTimeWindowError` that shows no times. -/
  | invalidTimeWindow (message : String)
  | inventory (e : InventoryError)
  | statementFailed
deriving DecidableEq

/-- The tables, with their keys and references. -/
structure CatalogTables where
  events : Table String EventRow
  ticketTypes : Table String TicketTypeRow
  pools : Table String PoolRow
  ticketTypes_id : ∀ id row, ticketTypes.row id = some row → row.id = id
  /-- `event_id UUID NOT NULL REFERENCES events(id)` -/
  event_of : ∀ id row, ticketTypes.row id = some row → (events.row row.eventId).isSome
  /-- `ticket_type_id UUID PRIMARY KEY REFERENCES ticket_types(id)` -/
  ticketType_of : ∀ id p, pools.row id = some p → (ticketTypes.row id).isSome

namespace CatalogTables

/-- `INSERT INTO events ... ON CONFLICT (id) DO UPDATE SET title, status, sale_start_at, sale_end_at`
-/
def upsertEvent (T : CatalogTables) (id : String) (row : EventRow) : CatalogTables :=
  { T with
    events := T.events.set id
      { row with organizerId := ((T.events.row id).map EventRow.organizerId).getD row.organizerId }
    event_of := fun id' row' h => by
      rw [Table.set_row]
      split_ifs
      · rfl
      · exact T.event_of id' row' h }

/-- A row of `ticket_types` that is not there. -/
def setTicketType (T : CatalogTables) (row : TicketTypeRow)
    (hevent : (T.events.row row.eventId).isSome) : CatalogTables :=
  { T with
    ticketTypes := T.ticketTypes.set row.id row
    ticketTypes_id := fun id row' h => by
      rcases Table.set_row_eq_some.1 h with ⟨rfl, rfl⟩ | ⟨-, h⟩
      · rfl
      · exact T.ticketTypes_id id row' h
    event_of := fun id row' h => by
      rcases Table.set_row_eq_some.1 h with ⟨rfl, rfl⟩ | ⟨-, h⟩
      · exact hevent
      · exact T.event_of id row' h
    ticketType_of := fun id p h => by
      rw [Table.set_row]
      split_ifs
      · rfl
      · exact T.ticketType_of id p h }

/-- A row of `inventory_pools` that is not there. -/
def setPool (T : CatalogTables) (id : String) (p : PoolRow)
    (hticket : (T.ticketTypes.row id).isSome) : CatalogTables :=
  { T with
    pools := T.pools.set id p
    ticketType_of := fun id' p' h => by
      rcases Table.set_row_eq_some.1 h with ⟨rfl, rfl⟩ | ⟨-, h⟩
      · exact hticket
      · exact T.ticketType_of id' p' h }

end CatalogTables

/-- The committed tables, and what the transaction of the call sees. -/
structure CatalogSession where
  committed : CatalogTables
  current : CatalogTables

/-- No transaction is open. -/
def CatalogSession.ofTables (T : CatalogTables) : CatalogSession := ⟨T, T⟩

/-- The ends of the call's transaction. -/
def catalogTx : TxEnds CatalogSession CreateError :=
  ⟨fun s => .ofTables s.current, fun s => .ofTables s.committed, .statementFailed⟩

/-- The columns of an event. -/
def Event.row (event : Event) : EventRow where
  organizerId := event.organizerId
  title := event.title
  status := event.status
  saleStartAt := event.saleWindow.startAt
  saleEndAt := event.saleWindow.endAt

/-- The columns of a ticket type, under these keys. -/
def TicketType.row (tt : TicketType) (id eventId : String) : TicketTypeRow where
  id := id
  eventId := eventId
  name := tt.name
  priceCents := tt.price.amountCents
  currency := tt.price.currency
  capacity := tt.capacity

/-- The columns of a pool. -/
def InventoryPool.row (pool : InventoryPool) : PoolRow where
  totalCapacity := pool.totalCapacity
  availableQty := pool.availableQuantity
  reservedQty := pool.reservedQuantity
  soldQty := pool.soldQuantity

/-- What the surroundings decide in one `CreateEventUseCase.execute` call. -/
structure CreateEnv where
  eventId : Uuid
  /-- What is drawn for the `n`-th ticket type, if it has no id. -/
  ticketTypeId : ℕ → Uuid
  onBegin : Fate
  onEvent : Fate
  onTicketType : ℕ → Fate
  onPool : ℕ → Fate
  onCommit : Fate
  onCatch : Fate

namespace PostgresEventRepository

variable (uuid : UuidReading)

/-- `INSERT INTO events (...) VALUES (...) ON CONFLICT (id) DO UPDATE SET ...` -/
def insertEvent (event : Event) : Sync CatalogSession CreateError Unit :=
  withUuid uuid .statementFailed event.id fun id =>
    Sync.modify fun s => { s with current := s.current.upsertEvent id event.row }

/-- `INSERT INTO ticket_types (...) VALUES (...) ON CONFLICT (id) DO NOTHING` -/
def insertTicketType (tt : TicketType) : Sync CatalogSession CreateError Unit :=
  withUuid uuid .statementFailed tt.id fun id =>
    withUuid uuid .statementFailed tt.eventId fun eventId s =>
      if (s.current.ticketTypes.row id).isSome then some (.ok (), s)
      else if h : (s.current.events.row eventId).isSome then
        some (.ok (), { s with current := s.current.setTicketType (tt.row id eventId) h })
      else some (.error .statementFailed, s)

/-- `INSERT INTO inventory_pools (...) VALUES (...) ON CONFLICT (ticket_type_id) DO NOTHING` -/
def insertInventoryPool (pool : InventoryPool) : Sync CatalogSession CreateError Unit :=
  withUuid uuid .statementFailed pool.ticketTypeId fun id s =>
    if pool.row.violated ≠ none then some (.error .statementFailed, s)
    else if (s.current.pools.row id).isSome then some (.ok (), s)
    else if h : (s.current.ticketTypes.row id).isSome then
      some (.ok (), { s with current := s.current.setPool id pool.row h })
    else some (.error .statementFailed, s)

open Async (await)

/-- The statements of a loop; `n` numbers them. -/
def insertAll {α : Type} (fate : ℕ → Fate) (insert : α → Sync CatalogSession CreateError Unit) :
    ℕ → List α → Async CatalogSession CreateError Unit
  | _, [] => pure ()
  | n, a :: as => do
    await (catalogTx.statement (fate n) (insert a))
    insertAll fate insert (n + 1) as

def save (env : CreateEnv) (event : Event) (inventoryPools : List InventoryPool) :
    Async CatalogSession CreateError Unit :=
  tryCatch
    (do
      await (catalogTx.beginTx env.onBegin)
      await (catalogTx.statement env.onEvent (insertEvent uuid event))
      insertAll env.onTicketType (insertTicketType uuid) 0 event.ticketTypes
      insertAll env.onPool (insertInventoryPool uuid) 0 inventoryPools
      await (catalogTx.commitTx env.onCommit))
    fun err => do
      await (catalogTx.rollbackTx env.onCatch)
      throw err

end PostgresEventRepository

namespace CreateEventUseCase

/-- `new TimeWindow(new Date(...), new Date(...))` -/
def saleWindow : Option Time → Option Time → Except CreateError TimeWindow
  | some startAt, some endAt => (TimeWindow.create startAt endAt).mapError .catalog
  | _, _ => .error (.invalidTimeWindow "Invalid Date instances provided to TimeWindow")

/-- `ttDto.id || randomUUID()` -/
def ticketTypeId (env : CreateEnv) (n : ℕ) (ttDto : TicketTypeRequestDTO) : String :=
  (truthy ttDto.id).getD (env.ticketTypeId n).val

/-- The loop over the entries of the request, from the `n`-th on. -/
def addTicketTypes (toUpperCase : String → String) (env : CreateEnv) :
    ℕ → List TicketTypeRequestDTO → Event → List InventoryPool →
      Except CreateError (Event × List InventoryPool)
  | _, [], event, inventoryPools => .ok (event, inventoryPools)
  | n, ttDto :: rest, event, inventoryPools => do
    let ttId := ticketTypeId env n ttDto
    let price ← (Money.create toUpperCase ttDto.priceCents
      ((truthy ttDto.currency).getD "USD")).mapError .catalog
    let event ← (event.addTicketType ttId ttDto.name price ttDto.capacity).mapError .catalog
    let pool ← (InventoryPool.create ttId ttDto.capacity).mapError .inventory
    addTicketTypes toUpperCase env (n + 1) rest event (inventoryPools ++ [pool])

/-- The aggregate and the pools of a request. -/
def build (toUpperCase : String → String) (env : CreateEnv) (dto : CreateEventRequestDTO) :
    Except CreateError (Event × List InventoryPool) := do
  let window ← saleWindow dto.saleStartAt dto.saleEndAt
  let event ← (Event.create env.eventId.val dto.organizerId dto.title window).mapError .catalog
  match dto.ticketTypes with
  | some ttDtos => addTicketTypes toUpperCase env 0 ttDtos event []
  | none => pure (event, [])

def execute (uuid : UuidReading) (toUpperCase : String → String) (env : CreateEnv)
    (dto : CreateEventRequestDTO) : Async CatalogSession CreateError EventResponseDTO := do
  let (event, inventoryPools) ← Async.ret (build toUpperCase env dto)
  PostgresEventRepository.save uuid env event inventoryPools
  pure event.toDTO

end CreateEventUseCase

end LaunchPad
