import LaunchPad.Order
import LaunchPad.Outbox

/-!
# Confirmation events

`createOrderConfirmedEvent`, and the envelope as `EventSerializer.serialize` checks it. The outbox
looks at three fields of an event; `EventBody` are the others.
-/

namespace LaunchPad

/-- The digits of a number, with zeros before them. -/
def padDigits (width : ℕ) (n : ℤ) : String :=
  String.ofList ((Nat.toDigits 10 n.toNat).leftpad width '0')

/-- `Date.prototype.toISOString`: the UTC date and time, with a sign and six digits for a year that
is not of four. -/
def toISOString (t : Time) : String :=
  let ms := t % 86400000
  -- Days are counted from 1 March of the year 0, in cycles of 400 years.
  let z := t / 86400000 + 719468
  let doe := z % 146097
  let yoe := (doe - doe / 1460 + doe / 36524 - doe / 146096) / 365
  let doy := doe - (365 * yoe + yoe / 4 - yoe / 100)
  let mp := (5 * doy + 2) / 153
  let day := doy - (153 * mp + 2) / 5 + 1
  let month := if mp < 10 then mp + 3 else mp - 9
  let year := yoe + z / 146097 * 400 + if month ≤ 2 then 1 else 0
  let yearText := if 0 ≤ year ∧ year ≤ 9999 then padDigits 4 year
    else (if year < 0 then "-" else "+") ++ padDigits 6 year.natAbs
  yearText ++ "-" ++ padDigits 2 month ++ "-" ++ padDigits 2 day
    ++ "T" ++ padDigits 2 (ms / 3600000) ++ ":" ++ padDigits 2 (ms / 60000 % 60)
    ++ ":" ++ padDigits 2 (ms / 1000 % 60) ++ "." ++ padDigits 3 (ms % 1000) ++ "Z"

example : toISOString 1788868800000 = "2026-09-08T12:00:00.000Z" := by decide +kernel

structure EventMetadata where
  correlationId : Option String
  causationId : Option String
  idempotencyKey : Option String
  userId : Option String
deriving DecidableEq

/-- What the envelope holds besides the fields of `DomainEvent`. There is no `data` where it is
`undefined` or `null`. -/
structure EventBody (D : Type) where
  version : ℤ
  occurredAt : String
  producer : String
  data : Option D
  metadata : Option EventMetadata
deriving DecidableEq

abbrev EventEnvelope (D : Type) := DomainEvent (EventBody D)

/-- `EventSerializer.serialize`; the text is that of `JSON.stringify`. -/
def EventSerializer.serialize {D : Type} (stringify : EventEnvelope D → String)
    (event : EventEnvelope D) : Except String String :=
  if event.eventId = "" then .error "DomainEvent must have an eventId"
  else if event.eventType = "" then .error "DomainEvent must have an eventType"
  else if event.aggregateId = "" then .error "DomainEvent must have an aggregateId"
  else if event.rest.version = 0 ∨ event.rest.version < 1 then
    .error "DomainEvent must have a valid version >= 1"
  else if event.rest.occurredAt = "" then
    .error "DomainEvent must have an occurredAt timestamp"
  else if event.rest.producer = "" then .error "DomainEvent must have a producer name"
  else if event.rest.data.isNone then .error "DomainEvent must have a data payload"
  else .ok (stringify event)

/-! ## `order.confirmed` -/

def ORDER_CONFIRMED_EVENT_TYPE : String := "order.confirmed"

structure OrderConfirmedPayloadV1 where
  orderId : String
  userId : String
  reservationId : String
  ticketTypeId : String
  quantity : ℤ
  totalAmountCents : ℕ
  currency : String
  confirmedAt : String
  providerTransactionId : String
deriving DecidableEq

structure OrderConfirmedPayloadV2 extends OrderConfirmedPayloadV1 where
  customerEmail : Option String
  ticketTierName : Option String
deriving DecidableEq

inductive OrderConfirmedPayload
  | v1 (payload : OrderConfirmedPayloadV1)
  | v2 (payload : OrderConfirmedPayloadV2)
deriving DecidableEq

/-- The fields both versions have. -/
def OrderConfirmedPayload.base : OrderConfirmedPayload → OrderConfirmedPayloadV1
  | .v1 payload => payload
  | .v2 payload => payload.toOrderConfirmedPayloadV1

/-- `1 | 2` -/
inductive PayloadVersion
  | one
  | two
deriving DecidableEq

def PayloadVersion.number : PayloadVersion → ℤ
  | .one => 1
  | .two => 2

structure CreateOrderConfirmedEventOptions where
  version : Option PayloadVersion
  customerEmail : Option String
  ticketTierName : Option String
  correlationId : Option String
  causationId : Option String
deriving DecidableEq

/-- An order without `confirmedAt`, or with no or an empty transaction id, has no event. -/
def createOrderConfirmedEvent (order : Order) (eventId : Uuid)
    (options : CreateOrderConfirmedEventOptions) :
    Except String (EventEnvelope OrderConfirmedPayload) :=
  match order.confirmedAt, truthy order.providerTransactionId with
  | some confirmedAt, some providerTransactionId =>
    let version := options.version.getD .one
    let basePayload : OrderConfirmedPayloadV1 :=
      { orderId := order.id
        userId := order.userId
        reservationId := order.reservationId
        ticketTypeId := order.ticketTypeId
        quantity := order.quantity
        totalAmountCents := order.totalAmount.amountCents
        currency := order.totalAmount.currency
        confirmedAt := toISOString confirmedAt
        providerTransactionId := providerTransactionId }
    let data := match version with
      | .two => .v2 ⟨basePayload, options.customerEmail, options.ticketTierName⟩
      | .one => .v1 basePayload
    .ok
      { eventId := eventId.val
        eventType := ORDER_CONFIRMED_EVENT_TYPE
        aggregateId := order.id
        rest :=
          { version := version.number
            occurredAt := toISOString confirmedAt
            producer := "launchpad.order-service"
            data := some data
            metadata := some ⟨options.correlationId, options.causationId, none,
              some order.userId⟩ } }
  | _, _ => .error ("Cannot emit OrderConfirmed event for order " ++ order.id
      ++ " without confirmation")

end LaunchPad
