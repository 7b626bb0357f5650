import LaunchPad.Sequential

/-!
# What a run owes its orders

Callbacks, tickets and refunds over runs of calls, one at a time: when a callback is absorbed, which
calls issue a ticket without a confirmation or confirm without a ticket, which transaction a call
asks the gateway to refund, and what a gateway may have executed of the refunds it was asked for.
-/

namespace LaunchPad

/-! ## Callbacks -/

/-- The callback returns, and its instance has seen the event; a SUCCESS has left the order `o`
CONFIRMED or REFUND_REQUIRED, unless it was refunded before. -/
def PaymentWebhookPayload.Absorbed (payload : PaymentWebhookPayload) (env : WebhookEnv) (self : ℕ)
    (w : World) (o : Order) : Prop :=
  ∃ reply w', (Call.handlePaymentWebhook env self payload).run w = some (.ok reply, w')
    ∧ payload.eventId ∈ w'.processedWebhookEvents self
    ∧ (payload.status = .success → o.status ≠ .cancelledRefunded →
      ∃ o', w'.orders.get payload.orderId = some o'
        ∧ (o'.status = .confirmed ∨ o'.status = .refundRequired))

/-- No guard is in the way of the callback: the order is CONFIRMED, or a SUCCESS is late or can
confirm both the order and the reservation, or a decline meets an order that is PAYMENT_PENDING and
a reservation that is so too or has run out. -/
def PaymentWebhookPayload.Unguarded (payload : PaymentWebhookPayload) (env : WebhookEnv) (o : Order)
    (r : Reservation) : Prop :=
  o.status = .confirmed
    ∨ payload.status = .success
      ∧ (isExpired o r env.now ∨ o.Confirmable ∧ r.CanConfirm env.checkAt)
    ∨ payload.status ≠ .success ∧ o.status = .paymentPending
      ∧ (r.expiresAt < env.now ∨ r.status = .paymentPending)

instance (r : Reservation) (now : Time) : Decidable (r.CanConfirm now) :=
  inferInstanceAs (Decidable (_ ∧ _))

instance (payload : PaymentWebhookPayload) (env : WebhookEnv) (o : Order) (r : Reservation) :
    Decidable (payload.Unguarded env o r) := inferInstanceAs (Decidable (_ ∨ _ ∧ _ ∨ _ ∧ _))

/-! ## Tickets -/

/-- How often the issuer has succeeded for the order. -/
def ticketsIssued (log : List PortEvent) (orderId : String) : ℕ := log.count (.ticketIssued orderId)

/-- Every CONFIRMED order has had its tickets issued, once, and no other order has had any. -/
def World.Ticketed (w : World) : Prop :=
  ∀ id o, w.orders.get id = some o →
    ticketsIssued w.log id = if o.status = .confirmed then 1 else 0

/-- The call issues tickets for an order that it does not leave CONFIRMED, confirms an order without
issuing any, or takes a CONFIRMED order back. A payment that has issued tickets leaves the order
CONFIRMED where it can confirm both the order and the reservation, and also where it confirms the
order and the compensation that follows throws. -/
def Call.Mistickets (w : World) (o : Order) (r : Reservation) : Call → Prop
  | .processPayment env command =>
    o.paidAttempt command.idempotencyKey = none ∧ o.status ≠ .confirmed ∧ env.issue = .ok ()
      ∧ ∃ result, env.charge = .ok result ∧ result.status = .success
        ∧ ¬ (o.Confirmable ∧ (r.CanConfirm env.checkAt ∨ r.status = .confirmed
          ∨ truthy result.transactionId = none ∧ truthy o.successTransactionId = none
          ∨ ∃ e, env.compensation.refund = .error e))
  | .handlePaymentWebhook env self payload =>
    payload.eventId ∉ w.processedWebhookEvents self ∧ payload.status = .success ∧ o.Confirmable
      ∧ ¬ isExpired o r env.now
  | .compensateOrder env _ providerTxnId _ =>
    o.status = .confirmed ∧ r.status ≠ .confirmed ∧ o.refundTarget providerTxnId ≠ none
      ∧ ∃ result, env.refund = .ok result
  | _ => False

/-- A call does so to a stored order. -/
def Call.MisticketsIn (c : Call) (w : World) : Prop :=
  ∃ id o r, c.orderId = some id ∧ w.orders.get id = some o
    ∧ w.reservations.get o.reservationId = some r ∧ c.Mistickets w o r

/-! ## Refunds -/

/-- The refunds the gateway was asked for, in their order. -/
def refundRequests (log : List PortEvent) : List RefundRequest :=
  log.filterMap fun
    | .refundRequested q => some q
    | _ => none

/-- A refund of the transaction was made for the order, as the gateway answered. -/
def RefundedFor (log : List PortEvent) (orderId txnId : String) : Prop :=
  ∃ q result, .refundAnswered q result ∈ log ∧ result.status = .success ∧ q.orderId = orderId
    ∧ q.transactionId = txnId

/-- The transaction the call asks the gateway to refund, if it does. A payment does after a charge
that it could not turn into two confirmations, of an order it may just have confirmed. -/
def Call.refunds (o : Order) (r : Reservation) : Call → Option String
  | .compensateOrder _ _ providerTxnId _ =>
    if o.status = .cancelledRefunded ∨ r.status = .confirmed then none
    else o.refundTarget providerTxnId
  | .retryCompensation _ _ =>
    if o.status ≠ .compensationPending ∨ r.status = .confirmed then none else o.refundTarget none
  | .processPayment env command =>
    match env.charge with
    | .error _ => none
    | .ok result =>
      if result.status ≠ .success ∨ o.paidAttempt command.idempotencyKey ≠ none
          ∨ o.status = .confirmed ∨ o.status = .cancelledRefunded ∨ r.status = .confirmed
          ∨ env.issue = .ok () ∧ o.Confirmable ∧ r.CanConfirm env.checkAt then none
      else (truthy result.transactionId).or
        ((if env.issue = .ok () ∧ o.Confirmable then none else truthy o.providerTransactionId).or
          (truthy o.successTransactionId))
  | _ => none

/-- The call is a SUCCESS callback, new to its instance, that comes too late for `o`. It is marked
REFUND_REQUIRED, even if it has been refunded. -/
def Call.ComesLate (w : World) (o : Order) (r : Reservation) : Call → Prop
  | .handlePaymentWebhook env self payload =>
    payload.eventId ∉ w.processedWebhookEvents self ∧ payload.status = .success
      ∧ isExpired o r env.now
  | _ => False

/-- The call is late for the order, or asks, for whichever order, for the refund of a transaction
that has been refunded for this one. -/
def Call.Reopens (id : String) (c : Call) (w : World) : Prop :=
  ∃ id' o r, c.orderId = some id' ∧ w.orders.get id' = some o
    ∧ w.reservations.get o.reservationId = some r
    ∧ (id' = id ∧ c.ComesLate w o r ∨ ∃ t, c.refunds o r = some t ∧ RefundedFor w.log id t)

/-- The order is CANCELLED_REFUNDED by this refund, and since the log was `log` no refund was asked
for of a transaction that had been refunded for it. -/
def World.ClosedSince (w : World) (log : List PortEvent) (id : String)
    (refundTransactionId : Option String) : Prop :=
  (∃ o, w.orders.get id = some o ∧ o.status = .cancelledRefunded
      ∧ o.refundTransactionId = refundTransactionId)
    ∧ ∀ l q l', w.log = l ++ .refundRequested q :: l' → log.length ≤ l.length →
      ¬ RefundedFor l id q.transactionId

/-- What a gateway may have executed of the refunds it was asked for. It executes a request or does
not, never two with one key, and answers SUCCESS only where it has executed the key. It may answer
FAILED or TIMEOUT, or nothing, for a request it has executed. -/
inductive Executes : List PortEvent → List RefundRequest → Prop
  | nil : Executes [] []
  | execute {log : List PortEvent} {done : List RefundRequest} (h : Executes log done)
      (q : RefundRequest) (hnew : q.idempotencyKey ∉ done.map RefundRequest.idempotencyKey) :
      Executes (log ++ [.refundRequested q]) (done ++ [q])
  | skip {log : List PortEvent} {done : List RefundRequest} (h : Executes log done)
      (q : RefundRequest) : Executes (log ++ [.refundRequested q]) done
  | answer {log : List PortEvent} {done : List RefundRequest} (h : Executes log done)
      (q : RefundRequest) (result : RefundResult)
      (hdone : result.status = .success →
        q.idempotencyKey ∈ done.map RefundRequest.idempotencyKey) :
      Executes (log ++ [.refundAnswered q result]) done
  | other {log : List PortEvent} {done : List RefundRequest} (h : Executes log done) (e : PortEvent)
      (hreq : ∀ q, e ≠ .refundRequested q) (hans : ∀ q result, e ≠ .refundAnswered q result) :
      Executes (log ++ [e]) done

/-- However such a gateway behaves, it executes one refund of a transaction for an order at most. -/
def World.RefundsOnce (w : World) : Prop :=
  ∀ done, Executes w.log done → ∀ orderId txnId,
    (done.filter fun q => q.orderId = orderId ∧ q.transactionId = txnId).length ≤ 1

/-- The call asks for a refund that the gateway was asked for before, under another key. -/
def Call.AsksAgain (c : Call) (w : World) : Prop :=
  ∃ id o r t, c.orderId = some id ∧ w.orders.get id = some o
    ∧ w.reservations.get o.reservationId = some r ∧ c.refunds o r = some t
    ∧ ∃ q ∈ refundRequests w.log, q.orderId = id ∧ q.transactionId = t
      ∧ q.idempotencyKey ≠ refundIdempotencyKey o

end LaunchPad
