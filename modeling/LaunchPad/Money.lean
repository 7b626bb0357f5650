import LaunchPad.Sequential

/-!
# Captured transactions

What became of the money: which transactions a run has captured, and which it accounts for. An
order answers for one transaction at a time, so the runs that lose money are those with a call
that captures one the order does not come to answer for (`Call.Loses`), that makes it forget the
one it answers for (`Call.Forgets`), or that sells the seat of an order still to be refunded
(`Call.SellsOwed`).
-/

namespace LaunchPad

/-! ## What a run captured -/

/-- The step handled a SUCCESS callback about a stored order. -/
def Step.Reports (s : Step) (orderId txnId : String) : Prop :=
  ∃ env self payload, s.call = .handlePaymentWebhook env self payload
    ∧ payload.status = .success ∧ payload.orderId = orderId
    ∧ payload.providerTransactionId = txnId ∧ (∃ o, s.before.orders.get orderId = some o)
    ∧ ∃ reply, s.reply = .ok reply

/-- A charge for the order returned SUCCESS with this transaction. -/
def ChargedIn (log : List PortEvent) (orderId txnId : String) : Prop :=
  ∃ request result, .chargeAnswered request result ∈ log ∧ request.orderId = orderId
    ∧ result.status = .success ∧ result.transactionId = some txnId

/-- A refund of the transaction returned SUCCESS. -/
def RefundedIn (log : List PortEvent) (txnId : String) : Prop :=
  ∃ request result, .refundAnswered request result ∈ log ∧ request.transactionId = txnId
    ∧ result.status = .success

def Captured (steps : List Step) (w : World) (orderId txnId : String) : Prop :=
  ChargedIn w.log orderId txnId ∨ ∃ s ∈ steps, s.Reports orderId txnId

def World.Refunded (w : World) (txnId : String) : Prop := RefundedIn w.log txnId

/-- A compensation of the order, without a transaction id, would ask for this refund. -/
def World.NextRefund (w : World) (orderId txnId : String) : Prop :=
  ∀ env reason, ∃ reply w' request rest,
    (Call.compensateOrder env orderId none reason).run w = some (reply, w')
      ∧ w'.log = w.log ++ .refundRequested request :: rest ∧ request.transactionId = txnId

/-- Waiting for a refund. -/
def Order.Unpaid (o : Order) : Prop :=
  o.status = .compensationPending ∨ o.status = .refundRequired

/-- Every captured transaction is accounted for. -/
def NoMoneyLost (steps : List Step) (w : World) : Prop :=
  ∀ id t, Captured steps w id t → ∃ o, w.orders.get id = some o
    ∧ (o.status = .confirmed ∧ o.providerTransactionId = some t
      ∨ w.Refunded t
      ∨ o.Unpaid ∧ w.NextRefund id t)

/-! ## The calls that lose some -/

/-- The order still has this transaction to refund. -/
def Order.Owes (o : Order) (t : String) : Prop := o.Unpaid ∧ o.refundTarget none = some t

/-- The order is CONFIRMED with the transaction, or owes it and can be compensated. -/
def Order.AnswersFor (o : Order) (r : Reservation) (t : String) : Prop :=
  o.status = .confirmed ∧ o.providerTransactionId = some t ∨ o.Owes t ∧ r.status ≠ .confirmed

/-- Nothing stands before this transaction, if it comes from the order's next attempt. -/
def Order.Remembers (o : Order) (t : String) : Prop :=
  truthy o.providerTransactionId = some t
    ∨ truthy o.providerTransactionId = none
      ∧ (truthy o.successTransactionId = some t
        ∨ ∀ a ∈ o.paymentAttempts, a.status ≠ .success)

/-- The refund goes through. -/
def CompensationEnv.Refunds (env : CompensationEnv) : Prop :=
  ∃ res, env.refund = .ok res ∧ res.status = .success

/-- The issuer delivers, and the order can be confirmed. -/
def PaymentEnv.Fulfils (env : PaymentEnv) (o : Order) : Prop := env.issue = .ok () ∧ o.Confirmable

/-- The call charges the order, and the charge goes through. -/
def Call.Charges (o : Order) (result : ChargeResult) : Call → Prop
  | .processPayment env command => o.paidAttempt command.idempotencyKey = none
      ∧ o.status ≠ .confirmed ∧ env.charge = .ok result ∧ result.status = .success
  | _ => False

/-- The call is a callback this instance has not seen, for an order that is not CONFIRMED. -/
def Call.Late (w : World) (o : Order) (r : Reservation) (t : String) : Call → Prop
  | .handlePaymentWebhook env self payload =>
    payload.eventId ∉ w.processedWebhookEvents self ∧ o.status ≠ .confirmed
      ∧ payload.status = .success ∧ isExpired o r env.now ∧ payload.providerTransactionId = t
  | _ => False

/-- The call is a SUCCESS callback that is ignored. -/
def Call.Ignored (w : World) (o : Order) (t : String) : Call → Prop
  | .handlePaymentWebhook _ self payload =>
    payload.status = .success ∧ payload.providerTransactionId = t
      ∧ (payload.eventId ∈ w.processedWebhookEvents self ∨ o.status = .confirmed)
  | _ => False

/-- The compensation leaves `t` for another transaction, which it refunds; where `t` has no text,
it is enough that the gateway answers. -/
def CompensationEnv.Misses (env : CompensationEnv) (o : Order) (r : Reservation)
    (x : Option String) (t : String) : Prop :=
  r.status ≠ .confirmed ∧ ∃ t', o.refundTarget x = some t' ∧ t' ≠ t
    ∧ (env.Refunds ∨ t = "" ∧ ∃ res, env.refund = .ok res)

/-- What becomes of a charge that does not confirm its order: it is lost where the order is
refunded already or its seat is sold; where it has no id, unless the gateway throws once the order
is confirmed; and where its refund does not go through, and the order has another transaction to
refund first (or, the gateway throwing, waits for no refund). -/
def PaymentEnv.Strands (env : PaymentEnv) (o : Order) (r : Reservation) (t : String) : Prop :=
  o.status = .cancelledRefunded ∨ r.status = .confirmed
    ∨ t = "" ∧ ¬ (env.Fulfils o ∧ ∃ e, env.compensation.refund = .error e)
    ∨ ¬ env.Fulfils o ∧ ¬ env.compensation.Refunds
      ∧ (¬ o.Remembers t ∨ (∃ e, env.compensation.refund = .error e) ∧ ¬ o.Unpaid)

/-- The call captures the transaction, and the order does not come to answer for it. -/
def Call.Loses (w : World) (o : Order) (r : Reservation) (t : String) (c : Call) : Prop :=
  (∃ env command result, c = .processPayment env command ∧ c.Charges o result
      ∧ result.transactionId = some t ∧ ¬ c.Confirms w o r ∧ env.Strands o r t)
    ∨ c.Late w o r t ∧ (t = "" ∨ r.status = .confirmed)
    ∨ c.Ignored w o t ∧ ¬ o.AnswersFor r t

/-- The order answers for the transaction, and the call makes it answer for another. -/
def Call.Forgets (w : World) (o : Order) (r : Reservation) (t : String) (c : Call) : Prop :=
  (∃ env command result t', c = .processPayment env command ∧ c.Charges o result
      ∧ truthy result.transactionId = some t' ∧ t' ≠ t ∧ env.compensation.Refunds)
    ∨ (∃ t', c.Late w o r t' ∧ t' ≠ t ∧ (t' = "" → truthy o.successTransactionId ≠ some t))
    ∨ ∃ env id x reason, c = .compensateOrder env id x reason ∧ env.Misses o r x t

/-- The call confirms the order and its reservation, while another order of the reservation still
owes a transaction. -/
def Call.SellsOwed (steps : List Step) (w : World) (o : Order) (r : Reservation) (c : Call) :
    Prop :=
  c.Confirms w o r ∧ r.CanConfirm c.checkAt
    ∧ ∃ id' o' t, w.orders.get id' = some o' ∧ o'.reservationId = o.reservationId
      ∧ Captured steps w id' t ∧ ¬ w.Refunded t ∧ o'.Owes t

/-- The call, made at `w` after these steps, loses money. -/
def Call.LosesMoney (steps : List Step) (w : World) (c : Call) : Prop :=
  ∃ id o r, c.orderId = some id ∧ w.orders.get id = some o
    ∧ w.reservations.get o.reservationId = some r
    ∧ ((∃ t, ¬ Captured steps w id t ∧ ¬ w.Refunded t ∧ c.Loses w o r t)
      ∨ (∃ t, Captured steps w id t ∧ ¬ w.Refunded t ∧ o.AnswersFor r t ∧ c.Forgets w o r t)
      ∨ c.SellsOwed steps w o r)

end LaunchPad
