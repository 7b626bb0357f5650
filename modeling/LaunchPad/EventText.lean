import LaunchPad.JsonReader
import LaunchPad.OrderEvents

/-!
# Events as texts

What `JSON.stringify` sees of an event, and `EventSerializer.deserialize`. A member that is
`undefined` is not written.
-/

namespace LaunchPad

def JsNumber.ofInt (z : ℤ) : JsNumber := .ofDecimal (z < 0) z.natAbs 0

def JsNumber.ltOne : JsNumber → Bool
  | .zero => true
  | .infinite negative => negative
  | .nan => false
  | .finite negative _ n => negative || n ≤ 0

namespace Json

def ofString (s : String) : Json := .string (.ofString s)

def ofInt (z : ℤ) : Json := .number (.ofInt z)

/-- A property, where it is not `undefined`. -/
def defined (name : String) (x : Option Json) : List (JsString × Json) :=
  (x.map fun x => (.ofString name, x)).toList

/-- A property of what `JSON.parse` made. No array has one of the names that are asked for. -/
def property (name : String) : Json → Option Json
  | .object members => Members.lastOf (.ofString name) members
  | _ => none

def isNonemptyString : Option Json → Bool
  | some (.string s) => s ≠ []
  | _ => false

def isVersion : Option Json → Bool
  | some (.number x) => !x.ltOne
  | _ => false

def isNullish : Option Json → Bool
  | none | some .null => true
  | _ => false

end Json

open Json

def EventMetadata.toJson (m : EventMetadata) : Json :=
  .object (defined "correlationId" (m.correlationId.map ofString)
    ++ defined "causationId" (m.causationId.map ofString)
    ++ defined "idempotencyKey" (m.idempotencyKey.map ofString)
    ++ defined "userId" (m.userId.map ofString))

def OrderConfirmedPayloadV1.members (p : OrderConfirmedPayloadV1) : List (JsString × Json) :=
  [(.ofString "orderId", ofString p.orderId), (.ofString "userId", ofString p.userId),
    (.ofString "reservationId", ofString p.reservationId),
    (.ofString "ticketTypeId", ofString p.ticketTypeId),
    (.ofString "quantity", ofInt p.quantity),
    (.ofString "totalAmountCents", ofInt p.totalAmountCents),
    (.ofString "currency", ofString p.currency),
    (.ofString "confirmedAt", ofString p.confirmedAt),
    (.ofString "providerTransactionId", ofString p.providerTransactionId)]

def OrderConfirmedPayload.toJson : OrderConfirmedPayload → Json
  | .v1 p => .object p.members
  | .v2 p => .object (p.members ++ defined "customerEmail" (p.customerEmail.map ofString)
      ++ defined "ticketTierName" (p.ticketTierName.map ofString))

namespace EventSerializer

variable {D : Type} (dataJson : D → Json)

def envelope (event : EventEnvelope D) : Json :=
  .object ([(.ofString "eventId", ofString event.eventId),
      (.ofString "eventType", ofString event.eventType),
      (.ofString "aggregateId", ofString event.aggregateId),
      (.ofString "version", ofInt event.rest.version),
      (.ofString "occurredAt", ofString event.rest.occurredAt),
      (.ofString "producer", ofString event.rest.producer)]
    ++ defined "data" (event.rest.data.map dataJson)
    ++ defined "metadata" (event.rest.metadata.map EventMetadata.toJson))

/-- `JSON.stringify(event)` -/
def stringifyEvent (event : EventEnvelope D) : String :=
  String.ofList (envelope dataJson event).stringify

/-- The checks of `deserialize`. -/
def checkEnvelope (event : Json) : Except String Json :=
  if !event.isContainer then .error "Deserialized event must be an object"
  else if !isNonemptyString (event.property "eventId") then
    .error "Invalid or missing eventId in event envelope"
  else if !isNonemptyString (event.property "eventType") then
    .error "Invalid or missing eventType in event envelope"
  else if !isNonemptyString (event.property "aggregateId") then
    .error "Invalid or missing aggregateId in event envelope"
  else if !isVersion (event.property "version") then
    .error "Invalid or missing version in event envelope"
  else if !isNonemptyString (event.property "occurredAt") then
    .error "Invalid or missing occurredAt in event envelope"
  else if !isNonemptyString (event.property "producer") then
    .error "Invalid or missing producer in event envelope"
  else if isNullish (event.property "data") then
    .error "Invalid or missing data payload in event envelope"
  else .ok event

/-- The message of a `SyntaxError` is the engine's. -/
def deserialize (toDouble : JsNumber → JsNumber) (syntaxError : JsString → String)
    (rawJson : JsString) : Except String Json :=
  match Json.ofText toDouble rawJson with
  | none => .error ("Failed to parse event JSON: " ++ syntaxError rawJson)
  | some parsed => checkEnvelope parsed

end EventSerializer

/-- A payload: a value that is not `null`. -/
structure EventData (toDouble : JsNumber → JsNumber) extends JsValue toDouble where
  notNull : json ≠ .null

def EventData.toJson {toDouble : JsNumber → JsNumber} (d : EventData toDouble) : Json := d.json

end LaunchPad
