import LaunchPad.Idempotency
import LaunchPad.InventoryPool
import LaunchPad.Order

/-!
# The catalog

An event, its states, and the two requests that meet on it. `GET /events/:id` looks in the cache all
instances share, and loads the event where it is not there; an instance's loads of one event that
are under way are one (`RequestCoalescer`). `PATCH /events/:id/status` reads the event, moves it and
writes its status, and then deletes it from the cache. Each statement and each cache command is a
segment of its own, and the continuation that joins or starts a load is one too.

A row of `events` is read together with those of `ticket_types`, which nothing here writes. The key
of a row is the text the database has of its id, and a request names an event by any text that the
database reads as that id; the cache has the event under the text of the request. Beside the tables
and the cache the world keeps what they have executed, oldest first, and for whom.
-/

namespace LaunchPad

open Interleave

inductive EventStatus
  | draft
  | scheduled
  | live
  | ended
  | cancelled
deriving DecidableEq

def EventStatus.name : EventStatus → String
  | .draft => "DRAFT"
  | .scheduled => "SCHEDULED"
  | .live => "LIVE"
  | .ended => "ENDED"
  | .cancelled => "CANCELLED"

/-- What the catalog throws, by class. An `InvalidTimeWindowError` shows the two times, and
`statementFailed` is the database's error. -/
inductive CatalogError
  | error (message : String)
  | invalidTimeWindow (startAt endAt : Time)
  | invalidMoney (message : String)
  | invalidCapacity (message : String)
  | emptyTicketTypes (message : String)
  | invalidStateTransition (message : String)
  | statementFailed
deriving DecidableEq

def emptyTicketTypesError : CatalogError :=
  .emptyTicketTypes "Event must have at least one ticket type before scheduling or publishing"

def invalidStateTransitionError (fromStatus toStatus : EventStatus) : CatalogError :=
  .invalidStateTransition
    ("Cannot transition event status from " ++ fromStatus.name ++ " to " ++ toStatus.name)

/-! ## The aggregate -/

structure TimeWindow where
  startAt : Time
  endAt : Time
  ordered : startAt < endAt

def TimeWindow.create (startAt endAt : Time) : Except CatalogError TimeWindow :=
  if h : startAt < endAt then .ok ⟨startAt, endAt, h⟩
  else .error (.invalidTimeWindow startAt endAt)

/-- The constructor; `toUpperCase` is the runtime's. -/
def Money.create (toUpperCase : String → String) (amountCents : Number) (currency : String) :
    Except CatalogError Money :=
  match amountCents.integer.filter fun n => decide (0 ≤ n) with
  | none => .error (.invalidMoney
      ("Money amount must be a non-negative integer in cents. Received: " ++ amountCents.text))
  | some n =>
    if Blank currency then .error (.invalidMoney "Currency string must be provided")
    else .ok ⟨n.toNat, toUpperCase currency⟩

structure TicketType where
  id : String
  eventId : String
  name : String
  price : Money
  capacity : ℤ
  capacity_pos : 0 < capacity

def TicketType.create (id eventId name : String) (price : Money) (capacity : Number) :
    Except CatalogError TicketType :=
  if Blank id then .error (.error "TicketType ID cannot be empty")
  else if Blank name then .error (.error "TicketType name cannot be empty")
  else match h : InventoryPool.positiveInteger capacity with
    | none => .error (.invalidCapacity
        ("TicketType capacity must be a positive integer > 0. Received: " ++ capacity.text))
    | some n => .ok ⟨id, eventId, trim name, price, n, InventoryPool.pos_of_positiveInteger h⟩

/-- `ticketTypes` are the values of the map, in the order of its keys. -/
structure Event where
  id : String
  organizerId : String
  title : String
  saleWindow : TimeWindow
  status : EventStatus
  ticketTypes : List TicketType

namespace Event

def create (id organizerId title : String) (saleWindow : TimeWindow) : Except CatalogError Event :=
  if Blank id then .error (.error "Event ID cannot be empty")
  else if Blank organizerId then .error (.error "Organizer ID cannot be empty")
  else if Blank title then .error (.error "Event title cannot be empty")
  else .ok ⟨id, organizerId, trim title, saleWindow, .draft, []⟩

/-- `Map.prototype.set`: a key keeps its place, a new one comes last. -/
def setTicketType (ticketType : TicketType) : List TicketType → List TicketType
  | [] => [ticketType]
  | tt :: tts =>
    if tt.id = ticketType.id then ticketType :: tts else tt :: setTicketType ticketType tts

def addTicketType (event : Event) (ticketTypeId name : String) (price : Money)
    (capacity : Number) : Except CatalogError Event :=
  if event.status ≠ .draft then
    .error (.error ("Cannot add ticket type to event when status is " ++ event.status.name))
  else do
    let ticketType ← TicketType.create ticketTypeId event.id name price capacity
    pure { event with ticketTypes := setTicketType ticketType event.ticketTypes }

def schedule (event : Event) : Except CatalogError Event :=
  if event.status ≠ .draft then .error (invalidStateTransitionError event.status .scheduled)
  else if event.ticketTypes.isEmpty then .error emptyTicketTypesError
  else .ok { event with status := .scheduled }

def publish (event : Event) : Except CatalogError Event :=
  if event.status ≠ .draft ∧ event.status ≠ .scheduled then
    .error (invalidStateTransitionError event.status .live)
  else if event.ticketTypes.isEmpty then .error emptyTicketTypesError
  else .ok { event with status := .live }

def cancel (event : Event) : Except CatalogError Event :=
  if event.status = .cancelled ∨ event.status = .ended then
    .error (invalidStateTransitionError event.status .cancelled)
  else .ok { event with status := .cancelled }

end Event

structure TicketTypeDTO where
  id : String
  name : String
  priceCents : ℕ
  currency : String
  capacity : ℤ
deriving DecidableEq

/-- The times are sent as their ISO texts. -/
structure EventResponseDTO where
  id : String
  organizerId : String
  title : String
  status : EventStatus
  saleStartAt : Time
  saleEndAt : Time
  ticketTypes : List TicketTypeDTO
deriving DecidableEq

def Event.toDTO (event : Event) : EventResponseDTO where
  id := event.id
  organizerId := event.organizerId
  title := event.title
  status := event.status
  saleStartAt := event.saleWindow.startAt
  saleEndAt := event.saleWindow.endAt
  ticketTypes := event.ticketTypes.map fun tt =>
    ⟨tt.id, tt.name, tt.price.amountCents, tt.price.currency, tt.capacity⟩

/-! ## The tables and the cache -/

/-- How the database reads a text as a UUID, if it is one of a UUID: as the text it has of it
itself. -/
structure UuidReading where
  read : String → Option String
  read_read : ∀ text id, read text = some id → read id = some id

def smallLetters (text : String) : List Char := text.toList.map Char.toLower

/-- The reading that knows these ids, in small letters or capitals. -/
def UuidReading.ofIds (ids : List String) : UuidReading where
  read text := ids.find? fun id => smallLetters id = smallLetters text
  read_read text id h := by
    have hid : smallLetters id = smallLetters text := by simpa using List.find?_some h
    rw [hid, h]

/-- A statement that needs the text to be one of a UUID, or what it throws. -/
def withUuid {W ε α : Type} (uuid : UuidReading) (failed : ε) (id : String)
    (f : String → Sync W ε α) : Sync W ε α :=
  match uuid.read id with
  | none => throw failed
  | some id => f id

theorem withUuid_of_read {W ε α : Type} {uuid : UuidReading} {id key : String}
    (h : uuid.read id = some key) (failed : ε) (f : String → Sync W ε α) :
    withUuid uuid failed id f = f key := by
  simp only [withUuid, h]

theorem withUuid_of_none {W ε α : Type} {uuid : UuidReading} {id : String}
    (h : uuid.read id = none) (failed : ε) (f : String → Sync W ε α) :
    withUuid uuid failed id f = throw failed := by
  simp only [withUuid, h]

/-- A row of `events`, but for its id. -/
structure EventRow where
  organizerId : String
  title : String
  status : EventStatus
  saleStartAt : Time
  saleEndAt : Time
deriving DecidableEq

structure TicketTypeRow where
  id : String
  eventId : String
  name : String
  priceCents : ℤ
  currency : String
  capacity : ℤ
deriving DecidableEq

/-- What the database, the cache and the coalescers have executed, and for which call. -/
inductive CatalogStep (τ : Type)
  | selectEvent (self : τ) (id : String)
  | updateStatus (self : τ) (id : String) (status : EventStatus)
  | set (self : τ) (key : String)
  | del (self : τ) (key : String)
  | settle (self : τ)
deriving DecidableEq

/-- What all calls see. A coalescer's `inFlight` names the call whose load a key's promise is, and
`settled` is what the promises have settled to. -/
structure CatalogWorld (τ ι : Type) where
  events : String → Option EventRow
  ticketTypes : List TicketTypeRow
  cache : String → Option EventResponseDTO
  inFlight : ι → String → Option τ
  settled : τ → Option (Except CatalogError (Option EventResponseDTO))
  log : List (CatalogStep τ)

section Calls

variable {τ ι : Type}

abbrev CatalogAsync (τ ι α : Type) := Async (CatalogWorld τ ι) CatalogError α

namespace PostgresEventRepository

variable (uuid : UuidReading)

/-- `SELECT * FROM events WHERE id = $1`; the row comes with its id. -/
def selectEvent (self : τ) (id : String) :
    Sync (CatalogWorld τ ι) CatalogError (Option (String × EventRow)) :=
  withUuid uuid .statementFailed id fun id => do
    let row ← Sync.read fun w => w.events id
    Sync.modify fun w => { w with log := w.log ++ [.selectEvent self id] }
    pure (row.map (id, ·))

/-- `SELECT * FROM ticket_types WHERE event_id = $1`, in the order the table has them. -/
def selectTicketTypes (id : String) : Sync (CatalogWorld τ ι) CatalogError (List TicketTypeRow) :=
  withUuid uuid .statementFailed id fun id =>
    Sync.read fun w => w.ticketTypes.filter fun row => row.eventId = id

/-- The aggregate before its ticket types are fetched. -/
def createEvent (id : String) (row : EventRow) : Except CatalogError Event := do
  let saleWindow ← TimeWindow.create row.saleStartAt row.saleEndAt
  Event.create id row.organizerId row.title saleWindow

def addTicketTypes (toUpperCase : String → String) :
    List TicketTypeRow → Event → Except CatalogError Event
  | [], event => .ok event
  | ttRow :: ttRows, event => do
    let price ← Money.create toUpperCase (.ofInt ttRow.priceCents) ttRow.currency
    let event ← event.addTicketType ttRow.id ttRow.name price (.ofInt ttRow.capacity)
    addTicketTypes toUpperCase ttRows event

/-- The status of the row, applied to the new aggregate. -/
def applyStatus (status : EventStatus) (event : Event) : Except CatalogError Event :=
  match status with
  | .scheduled => event.schedule
  | .live => do
    let event ← if event.status = .draft then event.schedule else pure event
    event.publish
  | .cancelled => event.cancel
  | .draft => pure event
  | .ended => pure event

def findById (toUpperCase : String → String) (self : τ) (id : String) :
    CatalogAsync τ ι (Option Event) := do
  match ← Async.await (selectEvent uuid self id) with
  | none => pure none
  | some (rowId, row) => do
    let event ← Async.ret (createEvent rowId row)
    let ttRows ← Async.await (selectTicketTypes uuid id)
    let event ← Async.ret (addTicketTypes toUpperCase ttRows event >>= applyStatus row.status)
    pure (some event)

/-- `UPDATE events SET status = $1, ... WHERE id = $2` -/
def updateStatus (self : τ) (event : Event) : Sync (CatalogWorld τ ι) CatalogError Unit :=
  withUuid uuid .statementFailed event.id fun id => Sync.modify fun w => { w with
    events := Function.update w.events id
      ((w.events id).map fun row => { row with status := event.status })
    log := w.log ++ [.updateStatus self id event.status] }

end PostgresEventRepository

open PostgresEventRepository

variable (uuid : UuidReading)

/-! ## The use cases -/

namespace UpdateEventStatusUseCase

/-- The `switch` on the target. -/
def move (event : Event) (targetStatus : String) : Except CatalogError Event :=
  if targetStatus = EventStatus.scheduled.name then event.schedule
  else if targetStatus = EventStatus.live.name then event.publish
  else if targetStatus = EventStatus.cancelled.name then event.cancel
  else .error (.error ("Invalid status transition target: " ++ targetStatus))

def execute (toUpperCase : String → String) (self : τ) (id targetStatus : String) :
    CatalogAsync τ ι (Option EventResponseDTO) := do
  match ← findById uuid toUpperCase self id with
  | none => pure none
  | some event =>
    -- idempotent: the current state without an error
    if event.status.name = targetStatus then pure (some event.toDTO)
    else do
      let event ← Async.ret (move event targetStatus)
      Async.await (updateStatus uuid self event)
      pure (some event.toDTO)

end UpdateEventStatusUseCase

namespace GetEventByIdUseCase

def execute (toUpperCase : String → String) (self : τ) (id : String) :
    CatalogAsync τ ι (Option EventResponseDTO) := do
  match ← findById uuid toUpperCase self id with
  | none => pure none
  | some event => pure (some event.toDTO)

end GetEventByIdUseCase

namespace RedisCacheService

/-- What `set` serialized is parsed back. -/
def get (key : String) : Sync (CatalogWorld τ ι) CatalogError (Option EventResponseDTO) :=
  Sync.read fun w => w.cache key

def set (self : τ) (key : String) (value : EventResponseDTO) :
    Sync (CatalogWorld τ ι) CatalogError Unit :=
  Sync.modify fun w => { w with
    cache := Function.update w.cache key (some value)
    log := w.log ++ [.set self key] }

def del (self : τ) (key : String) : Sync (CatalogWorld τ ι) CatalogError Unit :=
  Sync.modify fun w => { w with
    cache := Function.update w.cache key none
    log := w.log ++ [.del self key] }

end RedisCacheService

namespace RequestCoalescer

variable [DecidableEq τ] [DecidableEq ι]

/-- The promise there is for the key, or else this call's is put there. -/
def join (self : τ) (inst : ι) (key : String) : Sync (CatalogWorld τ ι) CatalogError (Option τ) :=
  fun w => match w.inFlight inst key with
    | some existing => some (.ok (some existing), w)
    | none => some (.ok none, { w with
        inFlight := Function.update w.inFlight inst
          (Function.update (w.inFlight inst) key (some self)) })

/-- The `finally`: the key is free again, and the promise settles. -/
def settle (self : τ) (inst : ι) (key : String)
    (r : Except CatalogError (Option EventResponseDTO)) :
    Sync (CatalogWorld τ ι) CatalogError Unit :=
  Sync.modify fun w => { w with
    inFlight := Function.update w.inFlight inst (Function.update (w.inFlight inst) key none)
    settled := Function.update w.settled self (some r)
    log := w.log ++ [.settle self] }

/-- What the promise settles to; until then the caller waits. -/
def promise (existing : τ) : Sync (CatalogWorld τ ι) CatalogError (Option EventResponseDTO) :=
  fun w => (w.settled existing).map fun r => (r, w)

/-- The method `do`. -/
def run (self : τ) (inst : ι) (key : String) (fn : CatalogAsync τ ι (Option EventResponseDTO)) :
    CatalogAsync τ ι (Option EventResponseDTO) := do
  match ← Async.await (join self inst key) with
  | some existing => Async.await (promise existing)
  | none => do
    let r ← tryCatch (do let a ← fn; pure (Except.ok a)) fun e => pure (Except.error e)
    Async.await (settle self inst key r)
    Async.ret r

end RequestCoalescer

inductive CacheSource
  | cache
  | db
deriving DecidableEq

namespace CachedGetEventByIdUseCase

structure CachedEventResult where
  event : Option EventResponseDTO
  source : CacheSource
deriving DecidableEq

def getCacheKey (id : String) : String := "events:v1:" ++ id

/-- A load: the event from the database, put into the cache if there is one. -/
def load (toUpperCase : String → String) (self : τ) (id : String) :
    CatalogAsync τ ι (Option EventResponseDTO) := do
  let dbEvent ← GetEventByIdUseCase.execute uuid toUpperCase self id
  match dbEvent with
  | some dto => do
    Async.await (RedisCacheService.set self (getCacheKey id) dto)
    pure dbEvent
  | none => pure dbEvent

def execute [DecidableEq τ] [DecidableEq ι] (toUpperCase : String → String) (self : τ) (inst : ι)
    (coalescingEnabled : Bool) (id : String) : CatalogAsync τ ι CachedEventResult := do
  match ← Async.await (RedisCacheService.get (getCacheKey id)) with
  | some cached => pure ⟨some cached, .cache⟩
  | none =>
    if coalescingEnabled then do
      let event ← RequestCoalescer.run self inst (getCacheKey id) (load uuid toUpperCase self id)
      pure ⟨event, .db⟩
    else do
      let dbEvent ← load uuid toUpperCase self id
      pure ⟨dbEvent, .db⟩

end CachedGetEventByIdUseCase

/-! ## The routes -/

/-- A 400, a 404, or a 200 with the event and, for a GET, the `X-Cache` header. -/
inductive EventResponse
  | validationError (message : String)
  | notFound (message : String)
  | ok (event : EventResponseDTO) (source : Option CacheSource)
deriving DecidableEq

def eventNotFound (id : String) : EventResponse :=
  .notFound ("Event with ID '" ++ id ++ "' was not found")

/-- `GET /api/events/:id` -/
def getEvent [DecidableEq τ] [DecidableEq ι] (toUpperCase : String → String) (self : τ) (inst : ι)
    (coalescingEnabled : Bool) (id : String) : CatalogAsync τ ι EventResponse := do
  let result ← CachedGetEventByIdUseCase.execute uuid toUpperCase self inst coalescingEnabled id
  match result.event with
  | none => pure (eventNotFound id)
  | some event => pure (.ok event (some result.source))

/-- `PATCH /api/events/:id/status` -/
def patchEventStatus (toUpperCase : String → String) (self : τ) (id : String)
    (status : Option String) : CatalogAsync τ ι EventResponse :=
  match truthy status with
  | none => pure (.validationError "Target status field is required")
  | some status => do
    match ← UpdateEventStatusUseCase.execute uuid toUpperCase self id status with
    | none => pure (eventNotFound id)
    | some eventResponse => do
      Async.await (RedisCacheService.del self (CachedGetEventByIdUseCase.getCacheKey id))
      pure (.ok eventResponse none)

/-- A request on the catalog, and for a GET the instance that serves it. -/
inductive CatalogRequest (ι : Type)
  | get (inst : ι) (coalescingEnabled : Bool) (id : String)
  | patch (id : String) (status : Option String)

def CatalogRequest.run [DecidableEq τ] [DecidableEq ι] (toUpperCase : String → String) (self : τ) :
    CatalogRequest ι → CatalogAsync τ ι EventResponse
  | .get inst coalescingEnabled id => getEvent uuid toUpperCase self inst coalescingEnabled id
  | .patch id status => patchEventStatus uuid toUpperCase self id status

end Calls

end LaunchPad
