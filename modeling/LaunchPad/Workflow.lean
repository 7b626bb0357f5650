import LaunchPad.Order
import LaunchPad.Lib.Async
import LaunchPad.Lib.Repository
import Mathlib.Data.Finset.Insert

/-!
# The order and payment workflow

`OrderPaymentWorkflow` over the in-memory repositories. These hand out the stored object itself,
so a reference to an order or a reservation is its id, and a mutation is at once what everyone
reads. Each `await` of the source ends a segment; the first part of the method awaited belongs to
the segment that calls it. What a call's surroundings decide (its clock readings, the ids it draws,
what the gateway and the ticket issuer do) is its environment.

The gateway's traffic and the tickets issued are logged, in their order.
-/

namespace LaunchPad

open Interleave Rows
open Async (await)
open Sync (read modify waitFor)

/-! ## The ports -/

structure ChargeRequest where
  paymentId : String
  orderId : String
  amount : Money
  paymentMethodToken : String
  idempotencyKey : String
  customerEmail : Option String
deriving DecidableEq

inductive ChargeStatus
  | success
  | declined
  | timeout
  | failed
deriving DecidableEq

structure ChargeResult where
  status : ChargeStatus
  transactionId : Option String
  errorMessage : Option String
deriving DecidableEq

/-- Why an order is compensated. -/
inductive CompensationReason
  | downstreamFailed
  | fulfillment (cause : WorkflowError)
  | retry
  | given (text : String)
deriving DecidableEq

structure RefundRequest where
  refundId : String
  transactionId : String
  orderId : String
  amount : Money
  reason : CompensationReason
  idempotencyKey : String
deriving DecidableEq

inductive RefundStatus
  | success
  | failed
  | timeout
deriving DecidableEq

structure RefundResult where
  status : RefundStatus
  refundTransactionId : Option String
  errorMessage : Option String
deriving DecidableEq

inductive PortEvent
  | chargeRequested (request : ChargeRequest)
  | chargeAnswered (request : ChargeRequest) (result : ChargeResult)
  | refundRequested (request : RefundRequest)
  | refundAnswered (request : RefundRequest) (result : RefundResult)
  | ticketRequested (orderId : String)
  | ticketIssued (orderId : String)
deriving DecidableEq

/-! ## The repositories -/

/-- The stored objects, the events each workflow instance has seen, and the ports' log. -/
structure World where
  orders : Repository Order.id
  reservations : Repository Reservation.id
  processedWebhookEvents : ℕ → Finset String
  log : List PortEvent

abbrev Segment := Sync World WorkflowError

abbrev Flow := Async World WorkflowError

namespace World

def saveOrder (w : World) (o : Order) : World := { w with orders := w.orders.save o }

def saveReservation (w : World) (r : Reservation) : World :=
  { w with reservations := w.reservations.save r }

def record (w : World) (e : PortEvent) : World := { w with log := w.log ++ [e] }

/-- Instance `self` has processed the event. -/
def addEvent (w : World) (self : ℕ) (eventId : String) : World :=
  { w with
    processedWebhookEvents := Function.update w.processedWebhookEvents self
      (insert eventId (w.processedWebhookEvents self)) }

end World

/-- The order behind a reference. Nothing is ever removed, so there is one. -/
def derefOrder (id : String) : Segment Order := fun w => (w.orders.get id).map fun o => (.ok o, w)

def derefReservation (id : String) : Segment Reservation :=
  fun w => (w.reservations.get id).map fun r => (.ok r, w)

/-- Call a method of the order behind a reference. -/
def mutateOrder (id : String) (f : Order → Except WorkflowError Order) : Segment Unit := do
  let o ← derefOrder id
  let o' ← Sync.ofExcept (f o)
  modify (·.saveOrder o')

def mutateReservation (id : String) (f : Reservation → Except WorkflowError Reservation) :
    Segment Unit := do
  let r ← derefReservation id
  let r' ← Sync.ofExcept (f r)
  modify (·.saveReservation r')

/-- `orderRepo.save(order)` -/
def orderRepoSave (id : String) : Segment Unit := mutateOrder id .ok

/-- `reservationRepo.save(reservation)` -/
def reservationRepoSave (id : String) : Segment Unit := mutateReservation id .ok

def record (e : PortEvent) : Segment Unit := modify (·.record e)

/-- What the repository found, or an error with the given text and the id. -/
def orNotFound {α : Type} (text id : String) : Option α → Flow α
  | none => throw (.error (text ++ id))
  | some a => pure a

/-! ## `initiateCheckout` -/

structure InitiateCheckoutCommand where
  reservationId : String
  totalAmount : Money

structure CheckoutEnv where
  now : Time
  later : Time
  orderId : Uuid

/-- The reservation goes to PAYMENT_PENDING. -/
def startCheckout (env : CheckoutEnv) (reservationId : String) : Segment Unit := do
  let reservation ← derefReservation reservationId
  if reservation.status ≠ .pending then
    throw (.error ("Cannot checkout reservation with status: " ++ reservation.status.name))
  else
    mutateReservation reservationId (·.startPayment env.now env.later)
    reservationRepoSave reservationId

/-- The new order is stored. Its id is one no order has. -/
def createOrder (env : CheckoutEnv) (command : InitiateCheckoutCommand) : Segment Order := do
  let reservation ← derefReservation command.reservationId
  waitFor fun w => w.orders.get env.orderId.val = none
  let order := Order.ofReservation env.orderId reservation command.totalAmount
  modify (·.saveOrder order)
  pure order

def initiateCheckout (env : CheckoutEnv) (command : InitiateCheckoutCommand) : Flow Order := do
  let found ← await (read (·.reservations.get command.reservationId))
  let _ ← orNotFound "Reservation not found: " command.reservationId found
  await (startCheckout env command.reservationId)
  await (createOrder env command)

/-! ## `compensateOrder` -/

inductive CompensationOutcome
  | compensated
  | compensationFailed
  | alreadyCompensated
deriving DecidableEq

structure CompensationResult where
  handled : Bool
  outcome : CompensationOutcome
  status : OrderStatus
  refundTransactionId : Option String
  errorMessage : Option String
deriving DecidableEq

structure CompensationEnv where
  refundId : String
  refund : Except WorkflowError RefundResult
  now : Time

def refundIdempotencyKey (o : Order) : String :=
  "refund_" ++ o.id ++ "_" ++ toString (o.compensationAttempts.length + 1)

def refundRequest (env : CompensationEnv) (reason : CompensationReason) (o : Order)
    (txnId : String) : RefundRequest :=
  ⟨env.refundId, txnId, o.id, o.totalAmount, reason, refundIdempotencyKey o⟩

/-- Cancel the reservation, unless its hold is gone. Says whether it was cancelled. -/
def releaseHold : Option Reservation → Segment Bool
  | none => pure false
  | some r => do
    let reservation ← derefReservation r.id
    if reservation.status ≠ .cancelled ∧ reservation.status ≠ .expired then do
      mutateReservation r.id (·.cancel)
      reservationRepoSave r.id
      pure true
    else pure false

/-- Choose the transaction and ask for its refund; without one, cancel the order. -/
def requestRefund (env : CompensationEnv) (orderId : String) (providerTxnId : Option String)
    (reason : CompensationReason) : Segment (Option (ℕ × RefundRequest)) := do
  let order ← derefOrder orderId
  match order.refundTarget providerTxnId with
  | none => do
    mutateOrder orderId (·.cancel)
    orderRepoSave orderId
    pure none
  | some txnId => do
    let request := refundRequest env reason order txnId
    record (.refundRequested request)
    pure (some (order.compensationAttempts.length + 1, request))

/-- Both of these, where the first does not suspend. -/
def releaseThenRequest (env : CompensationEnv) (orderId : String) (providerTxnId : Option String)
    (reason : CompensationReason) (reservation : Option Reservation) :
    Segment (Option (Option (ℕ × RefundRequest))) := do
  if ← releaseHold reservation then pure none
  else do
    let r ← requestRefund env orderId providerTxnId reason
    pure (some r)

/-- The message of a failed refund. -/
def RefundResult.failure (r : RefundResult) : String :=
  (truthy r.errorMessage).getD "Refund failed at provider"

/-- What the refund's result makes of the order. -/
def settleRefund (env : CompensationEnv) (attemptNumber : ℕ) (request : RefundRequest) :
    Segment CompensationResult := do
  let result ← Sync.ofExcept env.refund
  record (.refundAnswered request result)
  match result.status with
  | .success => do
    mutateOrder request.orderId fun o => .ok (o.recordCompensationAttempt
      ⟨attemptNumber, request.idempotencyKey, .success, result.refundTransactionId, none, env.now⟩)
    mutateOrder request.orderId fun o => .ok (o.markCompensated result.refundTransactionId)
    orderRepoSave request.orderId
    pure ⟨true, .compensated, .cancelledRefunded, result.refundTransactionId, none⟩
  | _ => do
    mutateOrder request.orderId fun o => .ok (o.recordCompensationAttempt
      ⟨attemptNumber, request.idempotencyKey, .failed, none, some result.failure, env.now⟩)
    mutateOrder request.orderId fun o => .ok o.markCompensationPending
    orderRepoSave request.orderId
    pure ⟨true, .compensationFailed, .compensationPending, none, result.errorMessage⟩

/-- The answer for an order already refunded, or its reservation. -/
def lookUpHold (orderId reservationId : String) :
    Segment (CompensationResult ⊕ Option Reservation) := do
  let order ← derefOrder orderId
  if order.status = .cancelledRefunded then
    pure (.inl ⟨true, .alreadyCompensated, .cancelledRefunded, order.refundTransactionId, none⟩)
  else do
    let reservation ← read (·.reservations.get reservationId)
    pure (.inr reservation)

def compensateOrder (env : CompensationEnv) (orderId : String) (providerTxnId : Option String)
    (reason : CompensationReason) : Flow CompensationResult := do
  let found ← await (read (·.orders.get orderId))
  let order ← orNotFound "Order not found for compensation: " orderId found
  match ← await (lookUpHold orderId order.reservationId) with
  | .inl answer => pure answer
  | .inr reservation => do
    let requested ← await (releaseThenRequest env orderId providerTxnId reason reservation)
    let requested ← match requested with
      | some requested => pure requested
      | none => await (requestRefund env orderId providerTxnId reason)
    match requested with
    | none => pure ⟨true, .compensated, .cancelled, none, none⟩
    | some (attemptNumber, request) => await (settleRefund env attemptNumber request)

/-! ## `retryCompensation` -/

def checkRetry (orderId : String) : Segment Unit := do
  let order ← derefOrder orderId
  if order.status ≠ .compensationPending then
    throw (.error ("Cannot retry compensation for order with status: " ++ order.status.name))
  else pure ()

def retryCompensation (env : CompensationEnv) (orderId : String) : Flow CompensationResult := do
  let found ← await (read (·.orders.get orderId))
  let _ ← orNotFound "Order not found for retry compensation: " orderId found
  await (checkRetry orderId)
  compensateOrder env orderId none .retry

/-! ## `processPayment` -/

structure ProcessPaymentCommand where
  orderId : String
  paymentMethodToken : String
  idempotencyKey : String
  customerEmail : Option String

inductive PaymentMessage
  | text (s : String)
  | fulfillmentFailed (cause : WorkflowError) (compensation : CompensationOutcome)
deriving DecidableEq

/-- A flag the source leaves out is false. -/
structure ProcessPaymentResult where
  success : Bool
  status : OrderStatus
  transactionId : Option String
  recoverable : Bool
  timeout : Bool
  alreadyProcessed : Bool
  message : Option PaymentMessage
deriving DecidableEq

structure PaymentEnv where
  paymentId : String
  charge : Except WorkflowError ChargeResult
  issue : Except WorkflowError Unit
  attemptAt : Time
  confirmAt : Time
  checkAt : Time
  later : Time
  compensation : CompensationEnv

/-- Answer from what the order records, or call the gateway. -/
def startCharge (env : PaymentEnv) (command : ProcessPaymentCommand) :
    Segment (ProcessPaymentResult ⊕ ℕ × ChargeRequest) := do
  let order ← derefOrder command.orderId
  match order.paidAttempt command.idempotencyKey with
  | some attempt =>
    pure (.inl ⟨true, order.status, attempt.providerTransactionId, false, false, true,
      some (.text "Payment already successfully processed for this idempotency key")⟩)
  | none =>
    if order.status = .confirmed then
      pure (.inl ⟨true, .confirmed, order.providerTransactionId, false, false, true,
        some (.text "Order already confirmed")⟩)
    else do
      if order.status = .paymentDeclined then mutateOrder command.orderId (·.retryPayment)
      else pure ()
      let request : ChargeRequest := ⟨env.paymentId, order.id, order.totalAmount,
        command.paymentMethodToken, command.idempotencyKey, command.customerEmail⟩
      record (.chargeRequested request)
      pure (.inr (order.paymentAttempts.length + 1, request))

/-- The gateway has answered: the answer goes to the order's audit trail. -/
def recordCharge (env : PaymentEnv) (attemptNumber : ℕ) (request : ChargeRequest)
    (result : ChargeResult) (status : PaymentStatus) (txnId failureReason : Option String) :
    Segment Unit := do
  record (.chargeAnswered request result)
  mutateOrder request.orderId fun o => .ok (o.recordPaymentAttempt
    ⟨attemptNumber, request.idempotencyKey, status, txnId, failureReason, env.attemptAt⟩)

/-- The issuer has answered: confirm the order, then its reservation. -/
def confirmBoth (env : PaymentEnv) (orderId reservationId : String) (txnId : Option String) :
    Segment Unit := do
  Sync.ofExcept env.issue
  record (.ticketIssued orderId)
  mutateOrder orderId fun o => (·.2) <$> o.confirm txnId env.confirmAt
  mutateReservation reservationId (·.confirm env.checkAt env.later)
  reservationRepoSave reservationId

/-- The charge went through, and what followed it threw. -/
def postPaymentFailure (env : PaymentEnv) (orderId : String) (txnId : Option String)
    (cause : WorkflowError) : Flow ProcessPaymentResult := do
  await (orderRepoSave orderId)
  let compResult ← compensateOrder env.compensation orderId txnId (.fulfillment cause)
  pure ⟨false, compResult.status, none, false, false, false,
    some (.fulfillmentFailed cause compResult.outcome)⟩

def fulfil (env : PaymentEnv) (reservationId : String) (attemptNumber : ℕ)
    (request : ChargeRequest) (result : ChargeResult) : Flow ProcessPaymentResult := do
  await do
    recordCharge env attemptNumber request result .success result.transactionId none
    record (.ticketRequested request.orderId)
  tryCatch
    (do
      await (confirmBoth env request.orderId reservationId result.transactionId)
      await (orderRepoSave request.orderId)
      pure ⟨true, .confirmed, result.transactionId, false, false, false, none⟩)
    (postPaymentFailure env request.orderId result.transactionId)

/-- The order is declined, and its reservation goes back to PENDING if it has not expired. Says
whether it did; `tail` follows at once where it did not. -/
def declineOrder (orderId reservationId : String) (now : Time) (tail : Segment Unit) :
    Segment Bool := do
  mutateOrder orderId (·.markPaymentDeclined)
  let reservation ← derefReservation reservationId
  if now ≤ reservation.expiresAt then do
    mutateReservation reservationId (·.revertPaymentDecline)
    reservationRepoSave reservationId
    pure true
  else do
    tail
    pure false

/-- A charge that was DECLINED or FAILED, with the texts for an answer without a message. -/
def declineCharge (env : PaymentEnv) (reservationId : String) (attemptNumber : ℕ)
    (request : ChargeRequest) (result : ChargeResult) (status : PaymentStatus)
    (reason message : String) : Flow ProcessPaymentResult := do
  let reverted ← await do
    recordCharge env attemptNumber request result status none
      (some ((truthy result.errorMessage).getD reason))
    declineOrder request.orderId reservationId env.checkAt (orderRepoSave request.orderId)
  if reverted then await (orderRepoSave request.orderId) else pure ()
  pure ⟨false, .paymentDeclined, none, true, false, false,
    some (.text ((truthy result.errorMessage).getD message))⟩

def processPayment (env : PaymentEnv) (command : ProcessPaymentCommand) :
    Flow ProcessPaymentResult := do
  let found ← await (read (·.orders.get command.orderId))
  let order ← orNotFound "Order not found: " command.orderId found
  let found ← await (read (·.reservations.get order.reservationId))
  let reservation ← orNotFound "Reservation not found: " order.reservationId found
  match ← await (startCharge env command) with
  | .inl answer => pure answer
  | .inr (attemptNumber, request) =>
    match env.charge with
    | .error e => await (throw e)
    | .ok result =>
      match result.status with
      | .success => fulfil env reservation.id attemptNumber request result
      | .declined =>
        declineCharge env reservation.id attemptNumber request result .declined
          "Card declined" "Payment card was declined"
      | .timeout => do
        await do
          recordCharge env attemptNumber request result .timeout none
            (some ((truthy result.errorMessage).getD "Gateway timeout"))
          orderRepoSave request.orderId
        pure ⟨false, .paymentPending, none, false, true, false, some (.text
          "Payment request timed out. Status is pending provider reconciliation.")⟩
      | .failed =>
        declineCharge env reservation.id attemptNumber request result .failed
          "Provider failure" "Provider failed to process payment"

/-! ## `handlePaymentWebhook` -/

inductive WebhookStatus
  | success
  | declined
  | failed
deriving DecidableEq

structure PaymentWebhookPayload where
  eventId : String
  orderId : String
  providerTransactionId : String
  status : WebhookStatus
deriving DecidableEq

inductive WebhookOutcome
  | confirmed
  | duplicateIgnored
  | declined
  | refundTriggered
deriving DecidableEq

structure WebhookResult where
  handled : Bool
  outcome : WebhookOutcome
  status : OrderStatus
  message : String
  refundInitiated : Bool
deriving DecidableEq

structure WebhookEnv where
  now : Time
  confirmAt : Time
  checkAt : Time
  later : Time

/-- What a callback did to its order. -/
inductive WebhookStep
  | alreadyConfirmed
  | late
  | confirmed
  | declined (reverted : Bool)

/-- A SUCCESS callback is too late to confirm. -/
def isExpired (o : Order) (r : Reservation) (now : Time) : Prop :=
  r.status = .expired ∨ o.status = .expired ∨ r.expiresAt < now

instance (o : Order) (r : Reservation) (now : Time) : Decidable (isExpired o r now) :=
  inferInstanceAs (Decidable (_ ∨ _ ∨ _))

def addEvent (self : ℕ) (eventId : String) : Segment Unit := modify (·.addEvent self eventId)

/-- Everything a callback does up to its first save. -/
def applyWebhook (env : WebhookEnv) (self : ℕ) (payload : PaymentWebhookPayload)
    (reservationId : String) : Segment WebhookStep := do
  let order ← derefOrder payload.orderId
  let reservation ← derefReservation reservationId
  if order.status = .confirmed then do
    addEvent self payload.eventId
    pure .alreadyConfirmed
  else if payload.status = .success then
    if isExpired order reservation env.now then do
      mutateOrder payload.orderId fun o => .ok (o.markRefundRequired payload.providerTransactionId)
      addEvent self payload.eventId
      orderRepoSave payload.orderId
      pure .late
    else do
      mutateOrder payload.orderId fun o =>
        (·.2) <$> o.confirm (some payload.providerTransactionId) env.confirmAt
      mutateReservation reservationId (·.confirm env.checkAt env.later)
      addEvent self payload.eventId
      reservationRepoSave reservationId
      pure .confirmed
  else do
    let reverted ← declineOrder payload.orderId reservationId env.now do
      addEvent self payload.eventId
      orderRepoSave payload.orderId
    pure (.declined reverted)

/-- The status a duplicate is answered with. -/
def duplicateStatus : Option Order → Segment OrderStatus
  | none => pure .confirmed
  | some o => do
    let order ← derefOrder o.id
    pure order.status

def handlePaymentWebhook (env : WebhookEnv) (self : ℕ) (payload : PaymentWebhookPayload) :
    Flow WebhookResult := do
  let (seen, found) ← await (read fun w =>
    (decide (payload.eventId ∈ w.processedWebhookEvents self), w.orders.get payload.orderId))
  if seen then do
    let status ← await (duplicateStatus found)
    pure ⟨true, .duplicateIgnored, status,
      "Webhook event " ++ payload.eventId ++ " has already been processed", false⟩
  else do
    let order ← orNotFound "Order not found for webhook: " payload.orderId found
    let found ← await (read (·.reservations.get order.reservationId))
    let reservation ← orNotFound "Reservation not found for webhook: " order.reservationId found
    match ← await (applyWebhook env self payload reservation.id) with
    | .alreadyConfirmed => pure ⟨true, .duplicateIgnored, .confirmed,
        "Order was already confirmed; ignoring duplicate callback", false⟩
    | .late => pure ⟨true, .refundTriggered, .refundRequired,
        "Late payment received after reservation expired. " ++
          "Initiated automatic refund to protect inventory invariant.", true⟩
    | .confirmed => do
      await (orderRepoSave payload.orderId)
      pure ⟨true, .confirmed, .confirmed, "Order successfully confirmed via webhook", false⟩
    | .declined reverted => do
      if reverted then
        await do
          addEvent self payload.eventId
          orderRepoSave payload.orderId
      else pure ()
      pure ⟨true, .declined, .paymentDeclined, "Order payment marked declined via webhook", false⟩

/-! ## Calls -/

inductive Call
  | initiateCheckout (env : CheckoutEnv) (command : InitiateCheckoutCommand)
  | processPayment (env : PaymentEnv) (command : ProcessPaymentCommand)
  | handlePaymentWebhook (env : WebhookEnv) (self : ℕ) (payload : PaymentWebhookPayload)
  | compensateOrder (env : CompensationEnv) (orderId : String) (providerTxnId : Option String)
      (reason : CompensationReason)
  | retryCompensation (env : CompensationEnv) (orderId : String)
  /-- The background expiry of a reservation. -/
  | expire (now later : Time) (reservationId : String)

inductive Reply
  | order (o : Order)
  | payment (r : ProcessPaymentResult)
  | webhook (r : WebhookResult)
  | compensation (r : CompensationResult)
  | expired

def Call.program : Call → Flow Reply
  | .initiateCheckout env command => do
    let r ← LaunchPad.initiateCheckout env command
    pure (.order r)
  | .processPayment env command => do
    let r ← LaunchPad.processPayment env command
    pure (.payment r)
  | .handlePaymentWebhook env self payload => do
    let r ← LaunchPad.handlePaymentWebhook env self payload
    pure (.webhook r)
  | .compensateOrder env orderId providerTxnId reason => do
    let r ← LaunchPad.compensateOrder env orderId providerTxnId reason
    pure (.compensation r)
  | .retryCompensation env orderId => do
    let r ← LaunchPad.retryCompensation env orderId
    pure (.compensation r)
  | .expire now later reservationId => do
    await (mutateReservation reservationId (·.expire now later))
    pure .expired

/-- The call, run until it returns or throws. -/
def Call.run (c : Call) (w : World) : Option (Except WorkflowError Reply × World) :=
  c.program.run w

end LaunchPad
