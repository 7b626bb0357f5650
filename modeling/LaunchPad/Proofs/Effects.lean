import LaunchPad.Proofs.Sequential

/-!
# The ways a call ends

One inversion lemma for each effect of `LaunchPad.Sequential`: the orders and reservations it can
leave, and under which conditions.
-/

namespace LaunchPad

open Interleave Rows

/-! ## What effects keep -/

/-- A reservation changes its status only while it is open. -/
def Reservation.Moves (r r' : Reservation) : Prop :=
  r' = r ∨ r.Open ∧ ∃ s, r' = { r with status := s }

/-- An effect is on its own order and reservation. -/
structure Effect.Frame {α : Type} (o : Order) (r : Reservation) (e : Effect α) : Prop where
  id : e.order.id = o.id
  reservationId : e.order.reservationId = o.reservationId
  moves : r.Moves e.reservation

section Frame

variable {α : Type} {o : Order} {r : Reservation}

theorem Reservation.released_cases {r r' : Reservation} (h : r.released = .ok r') :
    r' = r ∧ (r.status = .cancelled ∨ r.status = .expired)
      ∨ r.Open ∧ r' = { r with status := .cancelled } := by
  unfold released at h
  split_ifs at h with hs
  · exact .inl ⟨(Except.ok.inj h).symm, hs⟩
  · exact .inr (cancel_ok h)

theorem Reservation.released_moves {r r' : Reservation} (h : r.released = .ok r') : r.Moves r' := by
  rcases released_cases h with ⟨h, -⟩ | ⟨ho, h⟩
  · exact .inl h
  · exact .inr ⟨ho, _, h⟩

theorem Order.settled_id (o : Order) (env : CompensationEnv) (res : RefundResult) :
    (o.settled env res).id = o.id := by
  unfold settled
  split <;> rfl

theorem Order.settled_reservationId (o : Order) (env : CompensationEnv) (res : RefundResult) :
    (o.settled env res).reservationId = o.reservationId := by
  unfold settled
  split <;> rfl

theorem Order.settled_status (o : Order) (env : CompensationEnv) (res : RefundResult) :
    (o.settled env res).status = if res.status = .success then .cancelledRefunded
      else .compensationPending := by
  unfold settled
  rcases res with ⟨_ | _ | _, t, m⟩ <;> rfl

/-- The ways a compensation ends. -/
theorem compensation_cases (env : CompensationEnv) (x : Option String)
    (reason : CompensationReason) (o : Order) (r : Reservation) :
    let e := compensation env x reason o r
    (e.order = o ∧ e.reservation = r ∧ e.events = []
      ∧ (o.status = .cancelledRefunded ∨ r.status = .confirmed))
    ∨ (∃ r', r.released = .ok r' ∧ e.reservation = r' ∧ o.status ≠ .cancelledRefunded
      ∧ ((o.refundTarget x = none ∧ e.events = []
          ∧ (o.status = .confirmed ∧ e.order = o
            ∨ o.status ≠ .confirmed ∧ e.order = { o with status := .cancelled }))
        ∨ ∃ t, o.refundTarget x = some t
          ∧ ((∃ err, env.refund = .error err) ∧ e.order = o
              ∧ e.events = [.refundRequested (refundRequest env reason o t)]
            ∨ ∃ res, env.refund = .ok res ∧ e.order = o.settled env res
              ∧ e.events = [.refundRequested (refundRequest env reason o t),
                .refundAnswered (refundRequest env reason o t) res]))) := by
  unfold compensation
  split_ifs with hs
  · exact .inl ⟨rfl, rfl, rfl, .inl hs⟩
  rcases hr : r.released with e | r'
  · refine .inl ⟨rfl, rfl, rfl, .inr ?_⟩
    unfold Reservation.released Reservation.cancel Reservation.Open at hr
    split_ifs at hr with h1 h2
    rcases hst : r.status <;> simp [hst] at h1 h2 ⊢
  · refine .inr ⟨r', rfl, ?_, hs, ?_⟩
    · rcases o.refundTarget x with _ | t
      · rcases o.cancel with e | o' <;> rfl
      · rcases env.refund with e | res <;> rfl
    rcases o.refundTarget x with _ | t
    · refine .inl ⟨rfl, ?_⟩
      unfold Order.cancel
      split_ifs with hc
      · exact ⟨rfl, .inl ⟨hc, rfl⟩⟩
      · exact ⟨rfl, .inr ⟨hc, rfl⟩⟩
    · refine .inr ⟨t, rfl, ?_⟩
      rcases env.refund with e | res
      · exact .inl ⟨⟨e, rfl⟩, rfl, rfl⟩
      · exact .inr ⟨res, rfl, rfl, rfl⟩

/-- The order `confirm` makes of an order it accepts. -/
def Order.confirmedBy (o : Order) (t : Option String) (timestamp : Time) : Order :=
  { o with status := .confirmed, providerTransactionId := t, confirmedAt := some timestamp }

theorem Order.confirm_eq {o : Order} (hs : o.status ≠ .confirmed) (t : Option String) (at' : Time) :
    o.confirm t at' = if o.Confirmable then .ok (true, o.confirmedBy t at')
      else .error (.invalidStateTransition o.status.name "CONFIRMED") := by
  unfold confirm
  rw [if_neg hs]
  by_cases hc : o.Confirmable
  · rw [if_neg (not_not.2 hc), if_pos hc]
    rfl
  · rw [if_pos hc, if_neg hc]

theorem Reservation.confirm_eq (r : Reservation) (now later : Time) :
    r.CanConfirm now ∧ r.confirm now later = .ok { r with status := .confirmed }
      ∨ ¬ r.CanConfirm now ∧ ∃ e, r.confirm now later = .error e := by
  unfold confirm unlessExpired CanConfirm
  by_cases ho : r.Open
  · by_cases hn : r.expiresAt < now
    · exact .inr ⟨fun h => not_lt.2 h.2 hn, _, by rw [if_neg (not_not.2 ho), if_pos hn]⟩
    · exact .inl ⟨⟨ho, not_lt.1 hn⟩, by rw [if_neg (not_not.2 ho), if_neg hn]⟩
  · exact .inr ⟨fun h => ho h.1, _, by rw [if_pos ho]⟩

/-- What follows a successful charge: both confirmations, or a compensation, of the order as it was
or already CONFIRMED. -/
theorem fulfilment_cases (env : PaymentEnv) (result : ChargeResult) {o : Order} (r : Reservation)
    (hs : o.status ≠ .confirmed) :
    let e := fulfilment env result o r
    (env.issue = .ok () ∧ o.Confirmable ∧ r.CanConfirm env.checkAt
      ∧ e.order = o.confirmedBy result.transactionId env.confirmAt
      ∧ e.reservation = { r with status := .confirmed } ∧ e.events = [.ticketIssued o.id])
    ∨ ∃ o₁ cause pre, (∀ ev ∈ pre, ev = PortEvent.ticketIssued o.id)
      ∧ (o₁ = o ∧ ¬ (env.issue = .ok () ∧ o.Confirmable)
        ∨ o₁ = o.confirmedBy result.transactionId env.confirmAt ∧ env.issue = .ok ()
          ∧ o.Confirmable ∧ ¬ r.CanConfirm env.checkAt)
      ∧ e.order
        = (compensation env.compensation result.transactionId (.fulfillment cause) o₁ r).order
      ∧ e.reservation
        = (compensation env.compensation result.transactionId (.fulfillment cause) o₁ r).reservation
      ∧ e.events = pre
        ++ (compensation env.compensation result.transactionId
          (.fulfillment cause) o₁ r).events := by
  unfold fulfilment
  rcases env.issue with e | ⟨⟩
  · exact .inr ⟨o, e, [], by simp, .inl ⟨rfl, by simp⟩, rfl, rfl, rfl⟩
  rw [Order.confirm_eq hs]
  by_cases hc : o.Confirmable
  swap
  · rw [if_neg hc]
    exact .inr ⟨o, _, [.ticketIssued o.id], by simp, .inl ⟨rfl, fun h => hc h.2⟩, rfl, rfl, rfl⟩
  rw [if_pos hc]
  rcases r.confirm_eq env.checkAt env.later with ⟨hcan, hr⟩ | ⟨hcan, e, hr⟩ <;> rw [hr]
  · exact .inl ⟨rfl, hc, hcan, rfl, rfl, rfl⟩
  · exact .inr ⟨_, e, [.ticketIssued o.id], by simp, .inr ⟨rfl, rfl, hc, hcan⟩, rfl, rfl, rfl⟩

/-- The ways a decline ends. -/
theorem declination_cases (o : Order) (r : Reservation) (now : Time) (a : α) :
    let e := declination o r now a
    e.events = [] ∧ r.Moves e.reservation ∧ (r.status ≠ .confirmed →
      e.reservation.status ≠ .confirmed)
      ∧ (e.order = o ∨ o.status = .paymentPending
        ∧ e.order = { o with status := .paymentDeclined }) := by
  unfold declination
  rcases ho : o.markPaymentDeclined with e | o'
  · exact ⟨rfl, .inl rfl, fun h => h, .inl rfl⟩
  obtain ⟨hs, ho'⟩ := Order.markPaymentDeclined_ok ho
  simp only []
  split_ifs with hn
  · rcases hr : r.revertPaymentDecline with e | r'
    · exact ⟨rfl, .inl rfl, fun h => h, .inr ⟨hs, ho'⟩⟩
    · obtain ⟨hrs, hr'⟩ := Reservation.revertPaymentDecline_ok hr
      exact ⟨rfl, .inr ⟨.inr hrs, _, hr'⟩, fun _ => by simp [hr'], .inr ⟨hs, ho'⟩⟩
  · exact ⟨rfl, .inl rfl, fun h => h, .inr ⟨hs, ho'⟩⟩

theorem Order.attempted_id (o : Order) (env : PaymentEnv) (command : ProcessPaymentCommand)
    (result : ChargeResult) : (o.attempted env command result).id = o.id := by
  rcases result with ⟨_ | _ | _ | _, t, m⟩ <;> exact o.retried_id

theorem Order.attempted_reservationId (o : Order) (env : PaymentEnv)
    (command : ProcessPaymentCommand) (result : ChargeResult) :
    (o.attempted env command result).reservationId = o.reservationId := by
  rcases result with ⟨_ | _ | _ | _, t, m⟩ <;> exact o.retried_reservationId

theorem Order.attempted_status (o : Order) (env : PaymentEnv) (command : ProcessPaymentCommand)
    (result : ChargeResult) : (o.attempted env command result).status = o.retried.status := by
  rcases result with ⟨_ | _ | _ | _, t, m⟩ <;> rfl

theorem Order.retried_status (o : Order) :
    o.retried.status = if o.status = .paymentDeclined then .paymentPending else o.status := by
  unfold retried
  split_ifs <;> rfl

theorem Order.confirmable_attempted {o : Order} {env : PaymentEnv}
    {command : ProcessPaymentCommand} {result : ChargeResult} :
    (o.attempted env command result).Confirmable ↔ o.Confirmable := by
  unfold Confirmable
  rw [attempted_status, retried_status]
  split_ifs with h
  · simp [h]
  · rfl

/-- A charge that was answered adds one attempt, under the payment's key. -/
theorem Order.attempted_snoc (o : Order) (env : PaymentEnv) (command : ProcessPaymentCommand)
    (result : ChargeResult) :
    ∃ a, (o.attempted env command result).paymentAttempts = o.paymentAttempts ++ [a]
      ∧ a.idempotencyKey = command.idempotencyKey
      ∧ (a.status = .success ↔ result.status = .success) := by
  have hretried : o.retried.paymentAttempts = o.paymentAttempts := by
    unfold retried
    split_ifs <;> rfl
  rcases result with ⟨_ | _ | _ | _, t, m⟩ <;>
    exact ⟨_, congrArg (· ++ [_]) hretried, rfl, by simp⟩

theorem Order.attempted_paymentAttempts (o : Order) (env : PaymentEnv)
    (command : ProcessPaymentCommand) {result : ChargeResult} (h : result.status = .success) :
    (o.attempted env command result).paymentAttempts = o.paymentAttempts
      ++ [⟨o.paymentAttempts.length + 1, command.idempotencyKey, .success, result.transactionId,
        none, env.attemptAt⟩] := by
  rcases result with ⟨_ | _ | _ | _, t, m⟩ <;> simp at h
  unfold attempted recordPaymentAttempt retried
  split_ifs <;> rfl

/-- The first successful attempt is the order's, or the one just made. -/
theorem Order.attempted_successTransactionId (o : Order) (env : PaymentEnv)
    (command : ProcessPaymentCommand) {result : ChargeResult} (h : result.status = .success) :
    (∀ a ∈ o.paymentAttempts, a.status ≠ .success) ∧ o.successTransactionId = none
        ∧ (o.attempted env command result).successTransactionId = result.transactionId
      ∨ (∃ a ∈ o.paymentAttempts, a.status = .success)
        ∧ (o.attempted env command result).successTransactionId = o.successTransactionId := by
  unfold successTransactionId
  rw [o.attempted_paymentAttempts env command h, List.find?_append]
  rcases hf : o.paymentAttempts.find? fun a => a.status = .success with _ | a
  · refine .inl ⟨fun a ha => ?_, by simp [hf], by simp [hf]⟩
    simpa using List.find?_eq_none.1 hf a ha
  · refine .inr ⟨⟨a, List.mem_of_find?_eq_some hf, ?_⟩, by simp [hf]⟩
    simpa using List.find?_some hf

/-- The ways a payment ends. -/
theorem payment_cases (env : PaymentEnv) (command : ProcessPaymentCommand) (o : Order)
    (r : Reservation) :
    let e := payment env command o r
    (e.order = o ∧ e.reservation = r ∧ e.events = []
      ∧ (o.paidAttempt command.idempotencyKey ≠ none ∨ o.status = .confirmed))
    ∨ o.paidAttempt command.idempotencyKey = none ∧ o.status ≠ .confirmed
      ∧ ((∃ err, env.charge = .error err) ∧ e.order = o.retried ∧ e.reservation = r
          ∧ e.events = [.chargeRequested (chargeRequest env command o)]
        ∨ ∃ result, env.charge = .ok result
          ∧ e.order = (charged env command result o r).order
          ∧ e.reservation = (charged env command result o r).reservation
          ∧ e.events = .chargeRequested (chargeRequest env command o)
            :: .chargeAnswered (chargeRequest env command o) result
            :: (charged env command result o r).events) := by
  unfold payment
  rcases o.paidAttempt command.idempotencyKey with _ | a
  · simp only []
    split_ifs with hs
    · exact .inl ⟨rfl, rfl, rfl, .inr hs⟩
    · refine .inr ⟨trivial, hs, ?_⟩
      rcases env.charge with e | result
      · exact .inl ⟨⟨e, rfl⟩, rfl, rfl, rfl⟩
      · exact .inr ⟨result, rfl, rfl, rfl, rfl⟩
  · exact .inl ⟨rfl, rfl, rfl, .inl (by simp)⟩

/-- After an answer other than SUCCESS the order is open as before, or declined. -/
theorem charged_unpaid (env : PaymentEnv) (command : ProcessPaymentCommand) {result : ChargeResult}
    (o : Order) (r : Reservation) (h : result.status ≠ .success) :
    let e := charged env command result o r
    let o' := o.attempted env command result
    e.events = [] ∧ r.Moves e.reservation ∧ (r.status ≠ .confirmed →
      e.reservation.status ≠ .confirmed)
      ∧ (e.order = o' ∨ o'.status = .paymentPending
        ∧ e.order = { o' with status := .paymentDeclined }) := by
  rcases result with ⟨_ | _ | _ | _, t, m⟩
  · exact absurd rfl h
  · exact declination_cases _ r _ _
  · exact ⟨rfl, .inl rfl, fun h => h, .inl rfl⟩
  · exact declination_cases _ r _ _

/-- The ways a callback about an order that is not CONFIRMED ends. -/
theorem callback_cases (env : WebhookEnv) (payload : PaymentWebhookPayload) {o : Order}
    (r : Reservation) (hs : o.status ≠ .confirmed) :
    let e := callback env payload o r
    e.events = [] ∧
    (payload.status ≠ .success ∧ r.Moves e.reservation
        ∧ (r.status ≠ .confirmed → e.reservation.status ≠ .confirmed)
        ∧ (e.order = o ∨ o.status = .paymentPending
          ∧ e.order = { o with status := .paymentDeclined })
      ∨ payload.status = .success ∧ isExpired o r env.now
        ∧ e.order = o.markRefundRequired payload.providerTransactionId ∧ e.reservation = r
        ∧ (∃ a, e.result = .ok a)
      ∨ payload.status = .success ∧ ¬ isExpired o r env.now ∧ ¬ o.Confirmable ∧ e.order = o
        ∧ e.reservation = r ∧ (∃ err, e.result = .error err)
      ∨ payload.status = .success ∧ ¬ isExpired o r env.now ∧ o.Confirmable
        ∧ e.order = o.confirmedBy (some payload.providerTransactionId) env.confirmAt
        ∧ (r.CanConfirm env.checkAt ∧ e.reservation = { r with status := .confirmed }
            ∧ (∃ a, e.result = .ok a)
          ∨ ¬ r.CanConfirm env.checkAt ∧ e.reservation = r ∧ ∃ err, e.result = .error err)) := by
  unfold callback
  split_ifs with hp he
  · exact ⟨rfl, .inr (.inl ⟨hp, he, rfl, rfl, _, rfl⟩)⟩
  · rw [Order.confirm_eq hs]
    by_cases hc : o.Confirmable
    swap
    · rw [if_neg hc]
      exact ⟨rfl, .inr (.inr (.inl ⟨hp, he, hc, rfl, rfl, _, rfl⟩))⟩
    rw [if_pos hc]
    rcases r.confirm_eq env.checkAt env.later with ⟨hcan, hr⟩ | ⟨hcan, e, hr⟩ <;> rw [hr]
    · exact ⟨rfl, .inr (.inr (.inr ⟨hp, he, hc, rfl, .inl ⟨hcan, rfl, _, rfl⟩⟩))⟩
    · exact ⟨rfl, .inr (.inr (.inr ⟨hp, he, hc, rfl, .inr ⟨hcan, rfl, _, rfl⟩⟩))⟩
  · obtain ⟨hev, hm, hnc, ho⟩ := declination_cases o r env.now (α := WebhookResult)
      ⟨true, .declined,
      .paymentDeclined, "Order payment marked declined via webhook", false⟩
    exact ⟨hev, .inl ⟨hp, hm, hnc, ho⟩⟩

/-! ## Effects stay with their order -/

theorem Reservation.Moves.id {r r' : Reservation} (h : r.Moves r') : r'.id = r.id := by
  rcases h with rfl | ⟨-, s, rfl⟩ <;> rfl

theorem Reservation.Moves.confirmed {r r' : Reservation} (h : r.Moves r')
    (hr : r.status = .confirmed) : r'.status = .confirmed := by
  rcases h with rfl | ⟨ho, -⟩
  · exact hr
  · rcases ho with ho | ho <;> simp [hr] at ho

theorem Reservation.Moves.trans {r₁ r₂ r₃ : Reservation} (h : r₁.Moves r₂) (h' : r₂.Moves r₃) :
    r₁.Moves r₃ := by
  rcases h with rfl | ⟨ho, s, rfl⟩
  · exact h'
  · rcases h' with rfl | ⟨-, s', rfl⟩
    · exact .inr ⟨ho, s, rfl⟩
    · exact .inr ⟨ho, s', rfl⟩

theorem frame_self (e : Effect α) (ho : e.order = o) (hr : e.reservation = r) : e.Frame o r :=
  ⟨by rw [ho], by rw [ho], .inl hr⟩

theorem compensation_frame (env : CompensationEnv) (x : Option String)
    (reason : CompensationReason) (o : Order) (r : Reservation) :
    (compensation env x reason o r).Frame o r := by
  rcases compensation_cases env x reason o r with ⟨ho, hr, -⟩ | ⟨r', hrel, hr, -, h⟩
  · exact frame_self _ ho hr
  have hm : r.Moves (compensation env x reason o r).reservation := by
    rw [hr]
    exact Reservation.released_moves hrel
  rcases h with ⟨-, -, ⟨-, ho⟩ | ⟨-, ho⟩⟩ | ⟨t, -, ⟨-, ho, -⟩ | ⟨res, -, ho, -⟩⟩
  · exact ⟨by rw [ho], by rw [ho], hm⟩
  · exact ⟨by rw [ho], by rw [ho], hm⟩
  · exact ⟨by rw [ho], by rw [ho], hm⟩
  · exact ⟨by rw [ho, o.settled_id], by rw [ho, o.settled_reservationId], hm⟩

theorem fulfilment_frame (env : PaymentEnv) (result : ChargeResult) {o : Order} (r : Reservation)
    (hs : o.status ≠ .confirmed) : (fulfilment env result o r).Frame o r := by
  rcases fulfilment_cases env result r hs with ⟨-, -, hcan, ho, hr, -⟩ |
    ⟨o₁, cause, pre, -, ho₁, ho, hr, -⟩
  · exact ⟨by rw [ho]; rfl, by rw [ho]; rfl, .inr ⟨hcan.1, _, hr⟩⟩
  have hf := compensation_frame env.compensation result.transactionId (.fulfillment cause) o₁ r
  have hid : o₁.id = o.id ∧ o₁.reservationId = o.reservationId := by
    rcases ho₁ with ⟨rfl, -⟩ | ⟨rfl, -⟩ <;> exact ⟨rfl, rfl⟩
  exact ⟨by rw [ho, hf.id, hid.1], by rw [ho, hf.reservationId, hid.2], by rw [hr]; exact hf.moves⟩

theorem payment_frame (env : PaymentEnv) (command : ProcessPaymentCommand) (o : Order)
    (r : Reservation) : (payment env command o r).Frame o r := by
  rcases payment_cases env command o r with ⟨ho, hr, -⟩ | ⟨-, hs, ⟨-, ho, hr, -⟩ |
    ⟨result, -, ho, hr, -⟩⟩
  · exact frame_self _ ho hr
  · exact ⟨by rw [ho, o.retried_id], by rw [ho, o.retried_reservationId], .inl hr⟩
  by_cases hres : result.status = .success
  · have hs' : (o.attempted env command result).status ≠ .confirmed := by
      rw [o.attempted_status, o.retried_status]
      split_ifs
      · simp
      · exact hs
    have hf := fulfilment_frame env result r hs'
    rw [charged, hres] at ho hr
    exact ⟨by rw [ho, hf.id, o.attempted_id], by rw [ho, hf.reservationId,
      o.attempted_reservationId],
      by rw [hr]; exact hf.moves⟩
  · obtain ⟨-, hm, -, ho'⟩ := charged_unpaid env command o r hres
    refine ⟨?_, ?_, by rw [hr]; exact hm⟩
    · rw [ho]
      rcases ho' with ho' | ⟨-, ho'⟩ <;> rw [ho'] <;> exact o.attempted_id env command result
    · rw [ho]
      rcases ho' with ho' | ⟨-, ho'⟩ <;> rw [ho'] <;>
        exact o.attempted_reservationId env command result

theorem callback_frame (env : WebhookEnv) (payload : PaymentWebhookPayload) {o : Order}
    (r : Reservation) (hs : o.status ≠ .confirmed) : (callback env payload o r).Frame o r := by
  obtain ⟨-, ⟨-, hm, -, ho⟩ | ⟨-, -, ho, hr, -⟩ | ⟨-, -, -, ho, hr, -⟩ |
    ⟨-, -, -, ho, ⟨hcan, hr, -⟩ | ⟨-, hr, -⟩⟩⟩ := callback_cases env payload r hs
  · rcases ho with ho | ⟨-, ho⟩ <;> exact ⟨by rw [ho], by rw [ho], hm⟩
  · exact ⟨by rw [ho]; rfl, by rw [ho]; rfl, .inl hr⟩
  · exact frame_self _ ho hr
  · exact ⟨by rw [ho]; rfl, by rw [ho]; rfl, .inr ⟨hcan.1, _, hr⟩⟩
  · exact ⟨by rw [ho]; rfl, by rw [ho]; rfl, .inl hr⟩

theorem webhook_frame (env : WebhookEnv) (seen : Finset String) (payload : PaymentWebhookPayload)
    (o : Order) (r : Reservation) : (webhook env seen payload o r).Frame o r := by
  unfold webhook
  split_ifs with hseen hc
  · exact frame_self _ rfl rfl
  · exact frame_self _ rfl rfl
  · exact callback_frame env payload r hc

theorem Effect.Frame.map {β : Type} {e : Effect α} (h : e.Frame o r) (f : α → β) :
    (e.map f).Frame o r := ⟨h.id, h.reservationId, h.moves⟩

/-- Every call's effect is on the order and the reservation it is given. -/
theorem Call.effect_frame (c : Call) (w : World) (o : Order) (r : Reservation) :
    (c.effect w o r).Frame o r := by
  cases c with
  | initiateCheckout => exact frame_self _ rfl rfl
  | expire => exact frame_self _ rfl rfl
  | processPayment env command => exact (payment_frame env command o r).map _
  | handlePaymentWebhook env self payload => exact (webhook_frame env _ payload o r).map _
  | compensateOrder env orderId x reason => exact (compensation_frame env x reason o r).map _
  | retryCompensation env orderId =>
    unfold effect
    by_cases hs : o.status ≠ .compensationPending
    · simp only [if_pos hs]
      exact frame_self _ rfl rfl
    · simp only [if_neg hs]
      exact (compensation_frame env none .retry o r).map _

end Frame

end LaunchPad
