import LaunchPad.Reservation

/-!
# Orders

The aggregate `Order`: what its constructor checks, its audit trails, and its transitions.
`createdAt` and `updatedAt`, which nothing reads, are left out.
-/

namespace LaunchPad

inductive OrderStatus
  | created
  | paymentPending
  | confirmed
  | paymentDeclined
  | expired
  | cancelled
  | refundRequired
  | compensationPending
  | cancelledRefunded
deriving DecidableEq

def OrderStatus.name : OrderStatus → String
  | .created => "CREATED"
  | .paymentPending => "PAYMENT_PENDING"
  | .confirmed => "CONFIRMED"
  | .paymentDeclined => "PAYMENT_DECLINED"
  | .expired => "EXPIRED"
  | .cancelled => "CANCELLED"
  | .refundRequired => "REFUND_REQUIRED"
  | .compensationPending => "COMPENSATION_PENDING"
  | .cancelledRefunded => "CANCELLED_REFUNDED"

structure Money where
  amountCents : ℕ
  currency : String
deriving DecidableEq

inductive PaymentStatus
  | pending
  | success
  | declined
  | timeout
  | failed
deriving DecidableEq

structure PaymentAttempt where
  attemptNumber : ℕ
  idempotencyKey : String
  status : PaymentStatus
  providerTransactionId : Option String
  failureReason : Option String
  timestamp : Time
deriving DecidableEq

inductive CompensationStatus
  | pending
  | success
  | failed
deriving DecidableEq

structure CompensationAttempt where
  attemptNumber : ℕ
  idempotencyKey : String
  status : CompensationStatus
  refundTransactionId : Option String
  failureReason : Option String
  timestamp : Time
deriving DecidableEq

@[ext] structure Order where
  id : String
  userId : String
  reservationId : String
  ticketTypeId : String
  quantity : ℤ
  totalAmount : Money
  status : OrderStatus
  providerTransactionId : Option String
  refundTransactionId : Option String
  confirmedAt : Option Time
  paymentAttempts : List PaymentAttempt
  compensationAttempts : List CompensationAttempt
  id_nonblank : ¬ Blank id
  userId_nonblank : ¬ Blank userId
  reservationId_nonblank : ¬ Blank reservationId
  ticketTypeId_nonblank : ¬ Blank ticketTypeId
  quantity_pos : 0 < quantity

instance : DecidableEq Order := fun _ _ => decidable_of_iff _ Order.ext_iff.symm

namespace Order

/-- The order `initiateCheckout` constructs. The reservation's own checks are the constructor's. -/
def ofReservation (id : Uuid) (r : Reservation) (totalAmount : Money) : Order where
  id := id.val
  userId := r.userId
  reservationId := r.id
  ticketTypeId := r.ticketTypeId
  quantity := r.quantity
  totalAmount := totalAmount
  status := .paymentPending
  providerTransactionId := none
  refundTransactionId := none
  confirmedAt := none
  paymentAttempts := []
  compensationAttempts := []
  id_nonblank := id.nonblank
  userId_nonblank := r.userId_nonblank
  reservationId_nonblank := r.id_nonblank
  ticketTypeId_nonblank := r.ticketTypeId_nonblank
  quantity_pos := r.quantity_pos

def recordPaymentAttempt (o : Order) (a : PaymentAttempt) : Order :=
  { o with paymentAttempts := o.paymentAttempts ++ [a] }

/-- The statuses an order can be confirmed from. -/
def Confirmable (o : Order) : Prop :=
  o.status = .paymentPending ∨ o.status = .created ∨ o.status = .paymentDeclined

instance : DecidablePred Confirmable := fun _ => inferInstanceAs (Decidable (_ ∨ _ ∨ _))

/-- `confirm`, with what it returns: an order already CONFIRMED is left as it is. -/
def confirm (o : Order) (providerTransactionId : Option String) (timestamp : Time) :
    Except WorkflowError (Bool × Order) :=
  if o.status = .confirmed then .ok (false, o)
  else if ¬ o.Confirmable then .error (.invalidStateTransition o.status.name "CONFIRMED")
  else .ok (true, { o with
    status := .confirmed
    providerTransactionId := providerTransactionId
    confirmedAt := some timestamp })

def markPaymentDeclined (o : Order) : Except WorkflowError Order :=
  if o.status ≠ .paymentPending then
    .error (.invalidStateTransition o.status.name "PAYMENT_DECLINED")
  else .ok { o with status := .paymentDeclined }

def retryPayment (o : Order) : Except WorkflowError Order :=
  if o.status ≠ .paymentDeclined then
    .error (.invalidStateTransition o.status.name "PAYMENT_PENDING")
  else .ok { o with status := .paymentPending }

def markRefundRequired (o : Order) (providerTransactionId : String) : Order :=
  { o with status := .refundRequired, providerTransactionId := some providerTransactionId }

def recordCompensationAttempt (o : Order) (a : CompensationAttempt) : Order :=
  { o with compensationAttempts := o.compensationAttempts ++ [a] }

def markCompensationPending (o : Order) : Order := { o with status := .compensationPending }

def markCompensated (o : Order) (refundTransactionId : Option String) : Order :=
  { o with status := .cancelledRefunded, refundTransactionId := refundTransactionId }

def cancel (o : Order) : Except WorkflowError Order :=
  if o.status = .confirmed then .error (.invalidStateTransition o.status.name "CANCELLED")
  else .ok { o with status := .cancelled }

/-- `paymentAttempts.find(a => a.idempotencyKey === key)` -/
def existingAttempt (o : Order) (key : String) : Option PaymentAttempt :=
  o.paymentAttempts.find? fun a => a.idempotencyKey = key

/-- `existingAttempt && existingAttempt.status === 'SUCCESS'` -/
def paidAttempt (o : Order) (key : String) : Option PaymentAttempt :=
  (o.existingAttempt key).filter (·.status = .success)

/-- `paymentAttempts.find(a => a.status === 'SUCCESS')?.providerTransactionId` -/
def successTransactionId (o : Order) : Option String :=
  (o.paymentAttempts.find? fun a => a.status = .success).bind (·.providerTransactionId)

/-- The transaction a compensation refunds: the one it is given, the order's, or that of its first
successful attempt. -/
def refundTarget (o : Order) (providerTxnId : Option String) : Option String :=
  (truthy providerTxnId).or ((truthy o.providerTransactionId).or (truthy o.successTransactionId))

end Order

end LaunchPad
