import LaunchPad.Basic

/-!
# Reservations

The aggregate `Reservation`: its statuses, what its constructor checks, and its transitions, each
with the clock readings it takes. A transition that throws leaves the reservation as it was.
-/

namespace LaunchPad

inductive ReservationStatus
  | pending
  | paymentPending
  | confirmed
  | expired
  | cancelled
deriving DecidableEq

def ReservationStatus.name : ReservationStatus → String
  | .pending => "PENDING"
  | .paymentPending => "PAYMENT_PENDING"
  | .confirmed => "CONFIRMED"
  | .expired => "EXPIRED"
  | .cancelled => "CANCELLED"

/-- What the domain and the workflow throw, and what a gateway or a ticket issuer throws. -/
inductive WorkflowError
  | error (message : String)
  | invalidStateTransition (fromStatus toStatus : String)
  | reservationExpired (expiresAt now : Time)
  | prematureExpiration (expiresAt now : Time)
  /-- Thrown by a port: the message of an `Error`, or something that is not one. -/
  | external (message : Option String)
deriving DecidableEq

@[ext] structure Reservation where
  id : String
  userId : String
  ticketTypeId : String
  quantity : ℤ
  createdAt : Time
  expiresAt : Time
  status : ReservationStatus
  id_nonblank : ¬ Blank id
  userId_nonblank : ¬ Blank userId
  ticketTypeId_nonblank : ¬ Blank ticketTypeId
  quantity_pos : 0 < quantity
  createdAt_lt : createdAt < expiresAt

instance : DecidableEq Reservation := fun _ _ => decidable_of_iff _ Reservation.ext_iff.symm

namespace Reservation

/-- The statuses every transition but `startPayment` and `revertPaymentDecline` starts from. -/
def Open (r : Reservation) : Prop := r.status = .pending ∨ r.status = .paymentPending

instance : DecidablePred Open := fun _ => inferInstanceAs (Decidable (_ ∨ _))

/-- A transition to `next` that is refused past `expiresAt`; `later` is the reading in the error. -/
def unlessExpired (r : Reservation) (next : ReservationStatus) (now later : Time) :
    Except WorkflowError Reservation :=
  if r.expiresAt < now then .error (.reservationExpired r.expiresAt later)
  else .ok { r with status := next }

def startPayment (r : Reservation) (now later : Time) : Except WorkflowError Reservation :=
  if r.status ≠ .pending then .error (.invalidStateTransition r.status.name "PAYMENT_PENDING")
  else r.unlessExpired .paymentPending now later

def revertPaymentDecline (r : Reservation) : Except WorkflowError Reservation :=
  if r.status ≠ .paymentPending then .error (.invalidStateTransition r.status.name "PENDING")
  else .ok { r with status := .pending }

def confirm (r : Reservation) (now later : Time) : Except WorkflowError Reservation :=
  if ¬ r.Open then .error (.invalidStateTransition r.status.name "CONFIRMED")
  else r.unlessExpired .confirmed now later

def expire (r : Reservation) (now later : Time) : Except WorkflowError Reservation :=
  if ¬ r.Open then .error (.invalidStateTransition r.status.name "EXPIRED")
  else if now ≤ r.expiresAt then .error (.prematureExpiration r.expiresAt later)
  else .ok { r with status := .expired }

def cancel (r : Reservation) : Except WorkflowError Reservation :=
  if ¬ r.Open then .error (.invalidStateTransition r.status.name "CANCELLED")
  else .ok { r with status := .cancelled }

end Reservation

end LaunchPad
