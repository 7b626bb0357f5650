import LaunchPad.Workflow

/-!
# The objects' methods

The methods that change an order or a reservation, each with its arguments, and the calls of them
from outside the workflow. What a segment does is made of such calls, of entries in the ports' log
and of new orders (`Repertoire.Op`).
-/

namespace LaunchPad

open Interleave Rows

inductive OrderMethod
  | recordPaymentAttempt (a : PaymentAttempt)
  | confirm (providerTransactionId : Option String) (timestamp : Time)
  | markPaymentDeclined
  | retryPayment
  | markRefundRequired (providerTransactionId : String)
  | recordCompensationAttempt (a : CompensationAttempt)
  | markCompensationPending
  | markCompensated (refundTransactionId : Option String)
  | cancel

def OrderMethod.apply : OrderMethod → Order → Except WorkflowError Order
  | .recordPaymentAttempt a => fun o => .ok (o.recordPaymentAttempt a)
  | .confirm t timestamp => fun o => (·.2) <$> o.confirm t timestamp
  | .markPaymentDeclined => fun o => o.markPaymentDeclined
  | .retryPayment => fun o => o.retryPayment
  | .markRefundRequired t => fun o => .ok (o.markRefundRequired t)
  | .recordCompensationAttempt a => fun o => .ok (o.recordCompensationAttempt a)
  | .markCompensationPending => fun o => .ok o.markCompensationPending
  | .markCompensated t => fun o => .ok (o.markCompensated t)
  | .cancel => fun o => o.cancel

inductive ReservationMethod
  | startPayment (now later : Time)
  | revertPaymentDecline
  | confirm (now later : Time)
  | expire (now later : Time)
  | cancel

def ReservationMethod.apply : ReservationMethod → Reservation → Except WorkflowError Reservation
  | .startPayment now later => fun r => r.startPayment now later
  | .revertPaymentDecline => fun r => r.revertPaymentDecline
  | .confirm now later => fun r => r.confirm now later
  | .expire now later => fun r => r.expire now later
  | .cancel => fun r => r.cancel

/-- What some code may do: whether it charges, and the clock readings at which it may confirm and
expire a reservation. -/
structure Repertoire where
  charges : Prop
  confirmsAt : Option Time
  expiresAt : Option Time

namespace Repertoire

def order (may : Repertoire) : OrderMethod → Prop
  | .recordPaymentAttempt _ => may.charges
  | _ => True

def reservation (may : Repertoire) : ReservationMethod → Prop
  | .confirm now _ => may.confirmsAt = some now
  | .expire now _ => may.expiresAt = some now
  | _ => True

def event (may : Repertoire) : PortEvent → Prop
  | .chargeRequested _ => may.charges
  | .chargeAnswered _ _ => may.charges
  | _ => True

end Repertoire

/-- One thing done to the stored objects, to the log or to the events seen. -/
inductive Repertoire.Op (may : Repertoire) : World → World → Prop
  | order {w : World} {m : OrderMethod} {o o' : Order} (hm : may.order m)
      (ho : w.orders.get o.id = some o) (h : m.apply o = .ok o') : may.Op w (w.saveOrder o')
  | saveOrder {w : World} {o : Order} (ho : w.orders.get o.id = some o) : may.Op w (w.saveOrder o)
  | newOrder {w : World} {id : Uuid} {r : Reservation} {amount : Money}
      (hfresh : w.orders.get id.val = none) :
      may.Op w (w.saveOrder (.ofReservation id r amount))
  | reservation {w : World} {m : ReservationMethod} {r r' : Reservation} (hm : may.reservation m)
      (hr : w.reservations.get r.id = some r) (h : m.apply r = .ok r') :
      may.Op w (w.saveReservation r')
  | saveReservation {w : World} {r : Reservation} (hr : w.reservations.get r.id = some r) :
      may.Op w (w.saveReservation r)
  | record {w : World} {e : PortEvent} (he : may.event e) : may.Op w (w.record e)
  | addEvent {w : World} {self : ℕ} {eventId : String} : may.Op w (w.addEvent self eventId)

/-! ## Calls from outside -/

/-- A call of the workflow, or of a stored reservation's method. -/
inductive Action
  | call (c : Call)
  | method (m : ReservationMethod) (reservationId : String)

def Action.program : Action → Flow (Option Reply)
  | .call c => do
    let reply ← c.program
    pure (some reply)
  | .method m reservationId => do
    Async.await (mutateReservation reservationId m.apply)
    pure none

def Action.repertoire : Action → Repertoire
  | .call (.processPayment env _) => ⟨True, some env.checkAt, none⟩
  | .call (.handlePaymentWebhook env _ _) => ⟨False, some env.checkAt, none⟩
  | .call (.expire now _ _) => ⟨False, none, some now⟩
  | .method (.confirm now _) _ => ⟨False, some now, none⟩
  | .method (.expire now _) _ => ⟨False, none, some now⟩
  | _ => ⟨False, none, none⟩

end LaunchPad
