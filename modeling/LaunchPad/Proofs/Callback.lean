import LaunchPad.Settlement
import LaunchPad.Proofs.Confirmation

/-!
# Which callbacks are absorbed

A callback about a stored order meets the guards of `order.confirm`, `reservation.confirm`,
`order.markPaymentDeclined` and `reservation.revertPaymentDecline`, and a guard that throws leaves
the event unrecorded. `callback_returns_iff` says when none does, for every order and reservation.
-/

namespace LaunchPad

open Interleave Rows

variable {w : World} {o : Order} {r : Reservation} {env : WebhookEnv}
  {payload : PaymentWebhookPayload}

/-- A decline goes through where the order is PAYMENT_PENDING, and so is its reservation, unless it
has run out. -/
theorem declination_returns_iff {α : Type} {now : Time} {a : α} :
    (∃ b, (declination o r now a).result = .ok b)
      ↔ o.status = .paymentPending ∧ (r.expiresAt < now ∨ r.status = .paymentPending) := by
  unfold declination Order.markPaymentDeclined Reservation.revertPaymentDecline
  by_cases ho : o.status = .paymentPending
  · by_cases hn : now ≤ r.expiresAt
    · by_cases hr : r.status = .paymentPending <;> simp [ho, hn, hr, not_lt.2 hn]
    · simp [ho, hn, not_le.1 hn]
  · simp [ho]

/-- A callback about an order that is not CONFIRMED returns where no guard is in its way. -/
theorem callback_returns_iff (hs : o.status ≠ .confirmed) :
    (∃ b, (callback env payload o r).result = .ok b) ↔ payload.Unguarded env o r := by
  unfold PaymentWebhookPayload.Unguarded
  by_cases hp : payload.status = .success
  · obtain ⟨-, ⟨hp', -⟩ | ⟨-, he, -, -, hok⟩ | ⟨-, he, hc, -, -, e, herr⟩ |
      ⟨-, he, hc, -, ⟨hcan, -, hok⟩ | ⟨hcan, -, e, herr⟩⟩⟩ := callback_cases env payload r hs
    · exact absurd hp hp'
    · simp [hp, hok, he]
    · simp [hp, herr, he, hc, hs]
    · simp [hp, hok, hc, hcan]
    · simp [hp, herr, he, hcan, hs]
  · unfold callback
    rw [if_neg hp, declination_returns_iff]
    simp [hp, hs]

/-- After a SUCCESS callback that returned the order is CONFIRMED or REFUND_REQUIRED. -/
theorem callback_success {b : WebhookResult} (hs : o.status ≠ .confirmed)
    (hp : payload.status = .success) (h : (callback env payload o r).result = .ok b) :
    (callback env payload o r).order.status = .confirmed
      ∨ (callback env payload o r).order.status = .refundRequired := by
  obtain ⟨-, ⟨hp', -⟩ | ⟨-, -, ho, -⟩ | ⟨-, -, -, -, -, e, herr⟩ | ⟨-, -, -, ho, -⟩⟩ :=
    callback_cases env payload r hs
  · exact absurd hp hp'
  · rw [ho]
    exact .inr rfl
  · simp [herr] at h
  · rw [ho]
    exact .inl rfl

/-- A callback of an event its instance has not seen, about an order that is CONFIRMED. -/
theorem webhook_run_confirmed (env : WebhookEnv) {self : ℕ}
    (hnew : payload.eventId ∉ w.processedWebhookEvents self)
    (ho : w.orders.get payload.orderId = some o)
    (hr : w.reservations.get o.reservationId = some r) (hc : o.status = .confirmed) :
    (handlePaymentWebhook env self payload).run w = some (.ok ⟨true, .duplicateIgnored, .confirmed,
      "Order was already confirmed; ignoring duplicate callback", false⟩,
      w.addEvent self payload.eventId) := by
  have hrid : r.id = o.reservationId := w.reservations.get_key hr
  unfold handlePaymentWebhook applyWebhook
  simp [Sync.bind_apply, hnew, ho, hr, orNotFound, derefOrder, derefReservation, hrid, hc, addEvent]

theorem World.mem_addEvent (w : World) (self : ℕ) (eventId : String) :
    eventId ∈ (w.addEvent self eventId).processedWebhookEvents self := by
  simp [World.addEvent]

theorem absorbed_iff {self : ℕ} (hnew : payload.eventId ∉ w.processedWebhookEvents self)
    (ho : w.orders.get payload.orderId = some o)
    (hr : w.reservations.get o.reservationId = some r) :
    payload.Absorbed env self w o ↔ payload.Unguarded env o r := by
  by_cases hc : o.status = .confirmed
  · have hrun := webhook_run_confirmed env hnew ho hr hc
    refine iff_of_true ⟨_, _, run_map _ _ hrun, w.mem_addEvent self _, fun _ _ => ?_⟩ (.inl hc)
    exact ⟨o, ho, .inl hc⟩
  rw [← callback_returns_iff hc]
  have hrun := run_map _ Reply.webhook (handlePaymentWebhook_run env hnew ho hr hc)
  constructor
  · rintro ⟨reply, w', hrun', -⟩
    rw [Call.run, Call.program, hrun] at hrun'
    rcases hres : (callback env payload o r).result with e | b
    · simp [hres, Except.map] at hrun'
    · exact ⟨b, rfl⟩
  · rintro ⟨b, hb⟩
    rw [hb] at hrun
    refine ⟨_, _, hrun, w.mem_addEvent self _, fun hp _ => ?_⟩
    refine ⟨(callback env payload o r).order, ?_, callback_success hc hp hb⟩
    have hid : (callback env payload o r).order.id = payload.orderId := by
      rw [(callback_frame env payload r hc).id, w.orders.get_key ho]
    rw [← hid]
    exact Repository.get_save_self _ _

/-- In every state a run of calls leads to: a callback of an event that its instance has not seen,
about a stored order, is absorbed if and only if no guard is in its way. -/
theorem webhook_absorbed_iff {w₀ : World} (h₀ : w₀.Initial) {steps : List Step}
    (h : Run w₀ steps w) (env : WebhookEnv) (self : ℕ) (payload : PaymentWebhookPayload)
    (hnew : payload.eventId ∉ w.processedWebhookEvents self)
    (ho : w.orders.get payload.orderId = some o) :
    ∃ r, w.reservations.get o.reservationId = some r
      ∧ (payload.Absorbed env self w o ↔ payload.Unguarded env o r) := by
  obtain ⟨r, hr⟩ := h.linked (linked_of_initial h₀) _ o ho
  exact ⟨r, hr, absorbed_iff hnew ho hr⟩

/-- A SUCCESS at time 5. -/
def paidEvent : PaymentWebhookPayload := ⟨"evt", "a", "t1", .success⟩

def atFive : WebhookEnv := ⟨5, 5, 5, 5⟩

def checkedOut : List Call := [checkoutAt 1 orderA]

theorem checkedOut_isSome : (runCalls [] heldWorld checkedOut).isSome := by decide

/-- The order is paid for while it is PAYMENT_PENDING. -/
theorem webhook_absorbed_iff_pending :
    ∃ steps w o, Run heldWorld steps w ∧ w.orders.get "a" = some o
      ∧ paidEvent.Absorbed atFive 0 w o := by
  obtain ⟨hrun, -⟩ := run_runCalls checkedOut_isSome
  have ho : ((runCalls [] heldWorld checkedOut).get checkedOut_isSome).2.orders.get "a"
      = some (.ofReservation orderA heldSeat ⟨5000, "USD"⟩) := rfl
  refine ⟨_, _, _, hrun, ho, ?_⟩
  obtain ⟨r, hr, hiff⟩ := webhook_absorbed_iff heldWorld_initial hrun atFive 0 paidEvent
    (by decide) ho
  obtain rfl : { heldSeat with status := .paymentPending } = r := Option.some.inj hr
  exact hiff.2 (by decide)

/-- A checkout, and its compensation: the order and its reservation are CANCELLED. -/
def cancelledOrder : List Call :=
  [checkoutAt 1 orderA, .compensateOrder (refundAt 2) "a" none .downstreamFailed]

theorem cancelledOrder_isSome : (runCalls [] heldWorld cancelledOrder).isSome := by decide

/-- A SUCCESS callback for a CANCELLED order, before the reservation's deadline, is not absorbed. -/
theorem cancelled_order_rejects_callback :
    heldWorld.Initial ∧ ∃ steps w o, Run heldWorld steps w ∧ w.orders.get paidEvent.orderId = some o
      ∧ (∃ r, w.reservations.get o.reservationId = some r)
      ∧ paidEvent.eventId ∉ w.processedWebhookEvents 0 ∧ ¬ paidEvent.Absorbed atFive 0 w o := by
  obtain ⟨hrun, -⟩ := run_runCalls cancelledOrder_isSome
  have hnew : paidEvent.eventId ∉
    ((runCalls [] heldWorld cancelledOrder).get cancelledOrder_isSome).2.processedWebhookEvents 0 := by
      decide
  have ho : ((runCalls [] heldWorld cancelledOrder).get cancelledOrder_isSome).2.orders.get "a"
      = some { Order.ofReservation orderA heldSeat ⟨5000, "USD"⟩ with status := .cancelled } := rfl
  have hr : ((runCalls [] heldWorld cancelledOrder).get cancelledOrder_isSome).2.reservations.get "r1"
      = some { heldSeat with status := .cancelled } := rfl
  refine ⟨heldWorld_initial, _, _, _, hrun, ho, ⟨_, hr⟩, hnew, ?_⟩
  rw [absorbed_iff hnew ho hr]
  decide

end LaunchPad
