import LaunchPad.Workflow

/-!
# The workflow, one call at a time

Run alone, a call reads one order and that order's reservation, and leaves one of each and some
traffic with the ports: an `Effect`. The functions below say which, as functions of the order, the
reservation and the call's environment; that the code computes them is shown in
`Proofs.Sequential`. On them rest the properties of whole runs (`Run`).
-/

namespace LaunchPad

/-- What a call leaves of its order and reservation, and what it told the ports. -/
structure Effect (α : Type) where
  result : Except WorkflowError α
  order : Order
  reservation : Reservation
  events : List PortEvent

/-- `w` with this order, this reservation, and more traffic. -/
def World.put (w : World) (o : Order) (r : Reservation) (events : List PortEvent) : World where
  orders := w.orders.save o
  reservations := w.reservations.save r
  processedWebhookEvents := w.processedWebhookEvents
  log := w.log ++ events

def World.apply {α : Type} (w : World) (e : Effect α) : World :=
  w.put e.order e.reservation e.events

/-! ## Compensation -/

/-- The reservation once its hold is released. -/
def Reservation.released (r : Reservation) : Except WorkflowError Reservation :=
  if r.status = .cancelled ∨ r.status = .expired then .ok r else r.cancel

/-- The order once its refund has been answered. -/
def Order.settled (o : Order) (env : CompensationEnv) (result : RefundResult) : Order :=
  match result.status with
  | .success => (o.recordCompensationAttempt ⟨o.compensationAttempts.length + 1,
      refundIdempotencyKey o, .success, result.refundTransactionId, none, env.now⟩).markCompensated
        result.refundTransactionId
  | _ => (o.recordCompensationAttempt ⟨o.compensationAttempts.length + 1,
      refundIdempotencyKey o, .failed, none, some result.failure, env.now⟩).markCompensationPending

def RefundResult.answer (result : RefundResult) : CompensationResult :=
  match result.status with
  | .success => ⟨true, .compensated, .cancelledRefunded, result.refundTransactionId, none⟩
  | _ => ⟨true, .compensationFailed, .compensationPending, none, result.errorMessage⟩

def compensation (env : CompensationEnv) (providerTxnId : Option String)
    (reason : CompensationReason) (o : Order) (r : Reservation) : Effect CompensationResult :=
  if o.status = .cancelledRefunded then
    ⟨.ok ⟨true, .alreadyCompensated, .cancelledRefunded, o.refundTransactionId, none⟩, o, r, []⟩
  else
    match r.released with
    | .error e => ⟨.error e, o, r, []⟩
    | .ok r' =>
      match o.refundTarget providerTxnId with
      | none =>
        match o.cancel with
        | .error e => ⟨.error e, o, r', []⟩
        | .ok o' => ⟨.ok ⟨true, .compensated, .cancelled, none, none⟩, o', r', []⟩
      | some txnId =>
        let request := refundRequest env reason o txnId
        match env.refund with
        | .error e => ⟨.error e, o, r', [.refundRequested request]⟩
        | .ok result => ⟨.ok result.answer, o.settled env result, r',
            [.refundRequested request, .refundAnswered request result]⟩

/-! ## Payment -/

/-- The charge went through, but the order could not be confirmed. -/
def unfulfilled (env : PaymentEnv) (result : ChargeResult) (cause : WorkflowError) (o : Order)
    (r : Reservation) : Effect ProcessPaymentResult :=
  let e := compensation env.compensation result.transactionId (.fulfillment cause) o r
  { e with result := e.result.map fun c => ⟨false, c.status, none, false, false, false,
      some (.fulfillmentFailed cause c.outcome)⟩ }

/-- The charge went through and is recorded in the order `o`. -/
def fulfilment (env : PaymentEnv) (result : ChargeResult) (o : Order) (r : Reservation) :
    Effect ProcessPaymentResult :=
  match env.issue with
  | .error e => unfulfilled env result e o r
  | .ok () =>
    let issued (e : Effect ProcessPaymentResult) := { e with events := .ticketIssued o.id :: e.events }
    match o.confirm result.transactionId env.confirmAt with
    | .error e => issued (unfulfilled env result e o r)
    | .ok (_, o') =>
      match r.confirm env.checkAt env.later with
      | .error e => issued (unfulfilled env result e o' r)
      | .ok r' => issued ⟨.ok ⟨true, .confirmed, result.transactionId, false, false, false, none⟩,
          o', r', []⟩

/-- The order declined and its reservation reverted, with the answer of a call that declines. -/
def declination {α : Type} (o : Order) (r : Reservation) (now : Time) (answer : α) : Effect α :=
  match o.markPaymentDeclined with
  | .error e => ⟨.error e, o, r, []⟩
  | .ok o' =>
    if now ≤ r.expiresAt then
      match r.revertPaymentDecline with
      | .error e => ⟨.error e, o', r, []⟩
      | .ok r' => ⟨.ok answer, o', r', []⟩
    else ⟨.ok answer, o', r, []⟩

/-- A decline puts an order back to PAYMENT_PENDING before it is charged again. -/
def Order.retried (o : Order) : Order :=
  if o.status = .paymentDeclined then { o with status := .paymentPending } else o

def chargeRequest (env : PaymentEnv) (command : ProcessPaymentCommand) (o : Order) :
    ChargeRequest :=
  ⟨env.paymentId, o.id, o.totalAmount, command.paymentMethodToken, command.idempotencyKey,
    command.customerEmail⟩

/-- The order with the gateway's answer in its audit trail. -/
def Order.attempted (o : Order) (env : PaymentEnv) (command : ProcessPaymentCommand)
    (result : ChargeResult) : Order :=
  let attempt (status : PaymentStatus) (txnId reason : Option String) :=
    o.retried.recordPaymentAttempt ⟨o.paymentAttempts.length + 1, command.idempotencyKey, status,
      txnId, reason, env.attemptAt⟩
  match result.status with
  | .success => attempt .success result.transactionId none
  | .declined => attempt .declined none (some ((truthy result.errorMessage).getD "Card declined"))
  | .timeout => attempt .timeout none (some ((truthy result.errorMessage).getD "Gateway timeout"))
  | .failed => attempt .failed none (some ((truthy result.errorMessage).getD "Provider failure"))

/-- What follows the gateway's answer. -/
def charged (env : PaymentEnv) (command : ProcessPaymentCommand) (result : ChargeResult) (o : Order)
    (r : Reservation) : Effect ProcessPaymentResult :=
  let o' := o.attempted env command result
  match result.status with
  | .success =>
    let e := fulfilment env result o' r
    { e with events := .ticketRequested o.id :: e.events }
  | .declined => declination o' r env.checkAt ⟨false, .paymentDeclined, none, true, false, false,
      some (.text ((truthy result.errorMessage).getD "Payment card was declined"))⟩
  | .timeout => ⟨.ok ⟨false, .paymentPending, none, false, true, false, some (.text
      "Payment request timed out. Status is pending provider reconciliation.")⟩, o', r, []⟩
  | .failed => declination o' r env.checkAt ⟨false, .paymentDeclined, none, true, false, false,
      some (.text ((truthy result.errorMessage).getD "Provider failed to process payment"))⟩

def payment (env : PaymentEnv) (command : ProcessPaymentCommand) (o : Order) (r : Reservation) :
    Effect ProcessPaymentResult :=
  match o.paidAttempt command.idempotencyKey with
  | some attempt => ⟨.ok ⟨true, o.status, attempt.providerTransactionId, false, false, true,
      some (.text "Payment already successfully processed for this idempotency key")⟩, o, r, []⟩
  | none =>
    if o.status = .confirmed then
      ⟨.ok ⟨true, .confirmed, o.providerTransactionId, false, false, true,
        some (.text "Order already confirmed")⟩, o, r, []⟩
    else
      let request := chargeRequest env command o
      match env.charge with
      | .error e => ⟨.error e, o.retried, r, [.chargeRequested request]⟩
      | .ok result =>
        let e := charged env command result o r
        { e with events := .chargeRequested request :: .chargeAnswered request result :: e.events }

/-! ## Callbacks -/

/-- What a callback this instance has not seen does to an order that is not CONFIRMED. -/
def callback (env : WebhookEnv) (payload : PaymentWebhookPayload) (o : Order) (r : Reservation) :
    Effect WebhookResult :=
  if payload.status = .success then
    if isExpired o r env.now then
      ⟨.ok ⟨true, .refundTriggered, .refundRequired,
        "Late payment received after reservation expired. " ++
          "Initiated automatic refund to protect inventory invariant.", true⟩,
        o.markRefundRequired payload.providerTransactionId, r, []⟩
    else
      match o.confirm (some payload.providerTransactionId) env.confirmAt with
      | .error e => ⟨.error e, o, r, []⟩
      | .ok (_, o') =>
        match r.confirm env.checkAt env.later with
        | .error e => ⟨.error e, o', r, []⟩
        | .ok r' => ⟨.ok ⟨true, .confirmed, .confirmed, "Order successfully confirmed via webhook",
            false⟩, o', r', []⟩
  else declination o r env.now ⟨true, .declined, .paymentDeclined,
    "Order payment marked declined via webhook", false⟩

/-- What a callback does, given the events its instance has seen. -/
def webhook (env : WebhookEnv) (seen : Finset String) (payload : PaymentWebhookPayload) (o : Order)
    (r : Reservation) : Effect WebhookResult :=
  if payload.eventId ∈ seen then
    ⟨.ok ⟨true, .duplicateIgnored, o.status,
      "Webhook event " ++ payload.eventId ++ " has already been processed", false⟩, o, r, []⟩
  else if o.status = .confirmed then
    ⟨.ok ⟨true, .duplicateIgnored, .confirmed,
      "Order was already confirmed; ignoring duplicate callback", false⟩, o, r, []⟩
  else callback env payload o r

/-! ## Calls -/

/-- The order a call is about. -/
def Call.orderId : Call → Option String
  | .initiateCheckout _ _ => none
  | .processPayment _ command => some command.orderId
  | .handlePaymentWebhook _ _ payload => some payload.orderId
  | .compensateOrder _ orderId _ _ => some orderId
  | .retryCompensation _ orderId => some orderId
  | .expire _ _ _ => none

def Effect.map {α β : Type} (f : α → β) (e : Effect α) : Effect β :=
  ⟨e.result.map f, e.order, e.reservation, e.events⟩

/-- What a call about the order `o` does to it, to its reservation `r` and with the ports. -/
def Call.effect (w : World) (o : Order) (r : Reservation) : Call → Effect Reply
  | .processPayment env command => (payment env command o r).map .payment
  | .handlePaymentWebhook env self payload =>
    (webhook env (w.processedWebhookEvents self) payload o r).map .webhook
  | .compensateOrder env _ providerTxnId reason =>
    (compensation env providerTxnId reason o r).map .compensation
  | .retryCompensation env _ =>
    if o.status ≠ .compensationPending then
      ⟨.error (.error ("Cannot retry compensation for order with status: " ++ o.status.name)),
        o, r, []⟩
    else (compensation env none .retry o r).map .compensation
  | .initiateCheckout _ _ => ⟨.ok (.order o), o, r, []⟩
  | .expire _ _ _ => ⟨.ok .expired, o, r, []⟩

/-- Every order's reservation is stored. -/
def World.Linked (w : World) : Prop :=
  ∀ id o, w.orders.get id = some o → ∃ r, w.reservations.get o.reservationId = some r

/-- `w'` has the tables and the log of `w` with this effect. -/
structure Leaves {α : Type} (w : World) (e : Effect α) (w' : World) : Prop where
  orders : w'.orders = w.orders.save e.order
  reservations : w'.reservations = w.reservations.save e.reservation
  log : w'.log = w.log ++ e.events

/-- `w'` has the tables and the log of `w`. -/
structure SameStores (w w' : World) : Prop where
  orders : w'.orders = w.orders
  reservations : w'.reservations = w.reservations
  log : w'.log = w.log

/-! ## Runs -/

/-- A call of a run, with the world it found and what it returned or threw. -/
structure Step where
  before : World
  call : Call
  reply : Except WorkflowError Reply

/-- Calls one after another, each until it returns or throws. -/
inductive Run (w₀ : World) : List Step → World → Prop
  | nil : Run w₀ [] w₀
  | snoc {steps : List Step} {w w' : World} {reply : Except WorkflowError Reply}
      (h : Run w₀ steps w) (c : Call) (hc : c.run w = some (reply, w')) :
      Run w₀ (steps ++ [⟨w, c, reply⟩]) w'

/-- The calls, one after another, after the steps so far. -/
def runCalls (steps : List Step) (w : World) : List Call → Option (List Step × World)
  | [] => some (steps, w)
  | c :: cs =>
    match c.run w with
    | none => none
    | some (reply, w') => runCalls (steps ++ [⟨w, c, reply⟩]) w' cs

/-- The clock readings of a call, in their order. -/
def Call.readings : Call → List Time
  | .initiateCheckout env _ => [env.now, env.later]
  | .processPayment env _ =>
    [env.attemptAt, env.confirmAt, env.checkAt, env.later, env.compensation.now]
  | .handlePaymentWebhook env _ _ => [env.now, env.confirmAt, env.checkAt, env.later]
  | .compensateOrder env _ _ _ => [env.now]
  | .retryCompensation env _ => [env.now]
  | .expire now later _ => [now, later]

/-- Reservations, and nothing else yet. -/
structure World.Initial (w : World) : Prop where
  orders : w.orders = .empty
  events : ∀ self, w.processedWebhookEvents self = ∅
  log : w.log = []

/-- The gateway gives a result; it does not throw. -/
def Call.GatewayAnswers : Call → Prop
  | .processPayment env _ => (∃ c, env.charge = .ok c) ∧ ∃ c, env.compensation.refund = .ok c
  | .compensateOrder env _ _ _ => ∃ c, env.refund = .ok c
  | .retryCompensation env _ => ∃ c, env.refund = .ok c
  | _ => True

/-- The reservation can be confirmed at this time. -/
def Reservation.CanConfirm (r : Reservation) (now : Time) : Prop := r.Open ∧ now ≤ r.expiresAt

/-- The call makes `o` CONFIRMED and leaves it so. After a charge this takes, where the
reservation cannot be confirmed, that the compensation throws: it cannot cancel a CONFIRMED
reservation, nor an order for which it finds no transaction to refund. -/
def Call.Confirms (w : World) (o : Order) (r : Reservation) : Call → Prop
  | .processPayment env command =>
    o.paidAttempt command.idempotencyKey = none ∧ o.Confirmable ∧ env.issue = .ok ()
      ∧ ∃ result, env.charge = .ok result ∧ result.status = .success
        ∧ (r.CanConfirm env.checkAt ∨ r.status = .confirmed
          ∨ truthy result.transactionId = none ∧ truthy o.successTransactionId = none)
  | .handlePaymentWebhook env self payload =>
    payload.eventId ∉ w.processedWebhookEvents self ∧ payload.status = .success ∧ o.Confirmable
      ∧ ¬ isExpired o r env.now
  | _ => False

/-- The reading `Reservation.confirm` is called at. -/
def Call.checkAt : Call → Time
  | .processPayment env _ => env.checkAt
  | .handlePaymentWebhook env _ _ => env.checkAt
  | _ => 0

/-- The call confirms an order whose reservation is not CONFIRMED and cannot be. -/
def Call.ConfirmsAlone (c : Call) (w : World) : Prop :=
  ∃ id o r, c.orderId = some id ∧ w.orders.get id = some o
    ∧ w.reservations.get o.reservationId = some r ∧ c.Confirms w o r
    ∧ r.status ≠ .confirmed ∧ ¬ r.CanConfirm c.checkAt

/-- The call confirms an order although another order of its reservation is CONFIRMED. -/
def Call.ConfirmsAgain (c : Call) (w : World) : Prop :=
  ∃ id o r, c.orderId = some id ∧ w.orders.get id = some o
    ∧ w.reservations.get o.reservationId = some r ∧ c.Confirms w o r
    ∧ ∃ id' o', w.orders.get id' = some o' ∧ o'.reservationId = o.reservationId
      ∧ o'.status = .confirmed

/-- Every CONFIRMED order has its reservation CONFIRMED. -/
def World.NonContradictory (w : World) : Prop :=
  ∀ id o, w.orders.get id = some o → o.status = .confirmed →
    ∃ r, w.reservations.get o.reservationId = some r ∧ r.status = .confirmed

/-- No reservation has two CONFIRMED orders. -/
def World.SingleConfirmation (w : World) : Prop :=
  ∀ id₁ id₂ o₁ o₂, w.orders.get id₁ = some o₁ → w.orders.get id₂ = some o₂ →
    o₁.reservationId = o₂.reservationId → o₁.status = .confirmed → o₂.status = .confirmed →
    id₁ = id₂

/-! ## Sample calls -/

/-- A reservation held until 600000. -/
def heldSeat : Reservation :=
  ⟨"r1", "ann", "vip", 1, 0, 600000, .pending, by decide, by decide, by decide, Int.one_pos,
    by decide⟩

def heldWorld : World := ⟨.empty, Rows.Repository.empty.save heldSeat, fun _ => ∅, []⟩

def orderA : Uuid := ⟨"a", by decide⟩

def orderB : Uuid := ⟨"b", by decide⟩

def checkoutAt (now : Time) (id : Uuid) : Call :=
  .initiateCheckout ⟨now, now, id⟩ ⟨"r1", ⟨5000, "USD"⟩⟩

/-- A compensation at this time whose refund goes through. -/
def refundAt (now : Time) : CompensationEnv := ⟨"refund", .ok ⟨.success, some "rf", none⟩, now⟩

/-- A payment at this time, with the gateway's answer. -/
def payAt (now : Time) (orderId key : String) (charge : ChargeResult) : Call :=
  .processPayment ⟨"payment", .ok charge, .ok (), now, now, now, now, refundAt now⟩
    ⟨orderId, "card", key, none⟩

/-- A SUCCESS callback at this time. -/
def paidAt (now : Time) (eventId orderId txnId : String) : Call :=
  .handlePaymentWebhook ⟨now, now, now, now⟩ 0 ⟨eventId, orderId, txnId, .success⟩

end LaunchPad
