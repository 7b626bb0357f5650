import LaunchPad.Sequential
import LaunchPad.Lib.Hoare

/-!
# What a call does, alone

A call that runs alone only ever sees worlds of one shape, its order, its reservation and the
traffic so far over the world it started in (`World.put`), so each segment takes one such world
to another, and the whole call computes its `Effect`.
-/

namespace LaunchPad

open Interleave Rows

section Put

variable {w : World} {o o' : Order} {r r' : Reservation} {ev : List PortEvent} {id : String}

theorem World.put_self (ho : w.orders.get o.id = some o) (hr : w.reservations.get r.id = some r) :
    w.put o r [] = w := by
  unfold put
  rw [Repository.save_get ho, Repository.save_get hr, List.append_nil]

@[simp] theorem put_orders_get (h : o.id = id) : (w.put o r ev).orders.get id = some o := by
  subst h
  exact Repository.get_save_self _ o

@[simp] theorem put_reservations_get (h : r.id = id) :
    (w.put o r ev).reservations.get id = some r := by
  subst h
  exact Repository.get_save_self _ r

@[simp] theorem put_saveOrder (h : o.id = o'.id) :
    (w.put o r ev).saveOrder o' = w.put o' r ev := by
  unfold World.put World.saveOrder
  simp only [Repository.save_save h]

@[simp] theorem put_saveReservation (h : r.id = r'.id) :
    (w.put o r ev).saveReservation r' = w.put o r' ev := by
  unfold World.put World.saveReservation
  simp only [Repository.save_save h]

@[simp] theorem put_record (e : PortEvent) :
    (w.put o r ev).record e = w.put o r (ev ++ [e]) := by
  simp [World.put, World.record]

@[simp] theorem derefOrder_put (h : o.id = id) :
    derefOrder id (w.put o r ev) = some (.ok o, w.put o r ev) := by
  simp [derefOrder, h]

@[simp] theorem derefReservation_put (h : r.id = id) :
    derefReservation id (w.put o r ev) = some (.ok r, w.put o r ev) := by
  simp [derefReservation, h]

@[simp] theorem record_put (e : PortEvent) :
    record e (w.put o r ev) = some (.ok (), w.put o r (ev ++ [e])) := by
  simp [record]

theorem mutateOrder_put_ok {f : Order → Except WorkflowError Order} (h : o.id = id)
    (hf : f o = .ok o') (ho' : o.id = o'.id) :
    mutateOrder id f (w.put o r ev) = some (.ok (), w.put o' r ev) := by
  simp [mutateOrder, Sync.bind_apply, h, hf, put_saveOrder ho']

theorem mutateOrder_put_error {f : Order → Except WorkflowError Order} {e : WorkflowError}
    (h : o.id = id) (hf : f o = .error e) :
    mutateOrder id f (w.put o r ev) = some (.error e, w.put o r ev) := by
  simp [mutateOrder, Sync.bind_apply, h, hf]

theorem mutateReservation_put_ok {f : Reservation → Except WorkflowError Reservation}
    (h : r.id = id) (hf : f r = .ok r') (hr' : r.id = r'.id) :
    mutateReservation id f (w.put o r ev) = some (.ok (), w.put o r' ev) := by
  simp [mutateReservation, Sync.bind_apply, h, hf, put_saveReservation hr']

theorem mutateReservation_put_error {f : Reservation → Except WorkflowError Reservation}
    {e : WorkflowError} (h : r.id = id) (hf : f r = .error e) :
    mutateReservation id f (w.put o r ev) = some (.error e, w.put o r ev) := by
  simp [mutateReservation, Sync.bind_apply, h, hf]

@[simp] theorem orderRepoSave_put (h : o.id = id) :
    orderRepoSave id (w.put o r ev) = some (.ok (), w.put o r ev) :=
  mutateOrder_put_ok h rfl rfl

@[simp] theorem reservationRepoSave_put (h : r.id = id) :
    reservationRepoSave id (w.put o r ev) = some (.ok (), w.put o r ev) :=
  mutateReservation_put_ok h rfl rfl

end Put

/-! ## Compensation -/

section Compensation

variable {w : World} {o : Order} {r : Reservation} {ev : List PortEvent}

theorem Reservation.cancel_ok {r r' : Reservation} (h : r.cancel = .ok r') :
    r.Open ∧ r' = { r with status := .cancelled } := by
  unfold cancel at h
  split_ifs at h with ho
  simp only [Except.ok.injEq] at h
  exact ⟨ho, h.symm⟩

theorem Order.cancel_ok {o o' : Order} (h : o.cancel = .ok o') :
    o.status ≠ .confirmed ∧ o' = { o with status := .cancelled } := by
  unfold cancel at h
  split_ifs at h with hs
  simp only [Except.ok.injEq] at h
  exact ⟨hs, h.symm⟩

theorem settleRefund_put (env : CompensationEnv) (reason : CompensationReason) (t : String) :
    settleRefund env (o.compensationAttempts.length + 1) (refundRequest env reason o t)
        (w.put o r ev)
      = match env.refund with
        | .error e => some (.error e, w.put o r ev)
        | .ok result => some (.ok result.answer, w.put (o.settled env result) r
            (ev ++ [.refundAnswered (refundRequest env reason o t) result])) := by
  unfold settleRefund
  rcases env.refund with e | result
  · simp [Sync.bind_apply]
  · rcases result with ⟨_ | _ | _, txn, msg⟩ <;>
      simp [Sync.bind_apply, refundRequest, mutateOrder, RefundResult.answer, Order.settled,
        Order.recordCompensationAttempt, Order.markCompensated, Order.markCompensationPending]

theorem requestRefund_put (w : World) (o : Order) (r : Reservation) (ev : List PortEvent)
    (env : CompensationEnv) (x : Option String) (reason : CompensationReason) :
    requestRefund env o.id x reason (w.put o r ev)
      = match o.refundTarget x with
        | some t => some (.ok (some (o.compensationAttempts.length + 1,
            refundRequest env reason o t)), w.put o r
              (ev ++ [.refundRequested (refundRequest env reason o t)]))
        | none => match o.cancel with
          | .error e => some (.error e, w.put o r ev)
          | .ok o' => some (.ok none, w.put o' r ev) := by
  unfold requestRefund
  rw [Sync.bind_apply, derefOrder_put rfl]
  simp only []
  rcases o.refundTarget x with _ | t
  · rcases hc : o.cancel with e | o'
    · simp [Sync.bind_apply, mutateOrder_put_error rfl hc]
    · have hid : o.id = o'.id := by rw [(Order.cancel_ok hc).2]
      simp [Sync.bind_apply, mutateOrder_put_ok rfl hc hid, hid.symm]
  · simp [Sync.bind_apply]

theorem releaseHold_put :
    releaseHold (some r) (w.put o r ev)
      = match r.released with
        | .error e => some (.error e, w.put o r ev)
        | .ok r' => some (.ok (decide (r.status ≠ .cancelled ∧ r.status ≠ .expired)),
            w.put o r' ev) := by
  unfold releaseHold Reservation.released
  simp only [Sync.bind_apply, derefReservation_put]
  by_cases hs : r.status = .cancelled ∨ r.status = .expired
  · have hs' : ¬ (r.status ≠ .cancelled ∧ r.status ≠ .expired) := by tauto
    simp [hs, hs']
  · have hs' : r.status ≠ .cancelled ∧ r.status ≠ .expired := by tauto
    rw [if_neg hs, if_pos hs']
    rcases hc : r.cancel with e | r'
    · simp [Sync.bind_apply, mutateReservation_put_error rfl hc]
    · have hid : r.id = r'.id := by rw [(Reservation.cancel_ok hc).2]
      simp [Sync.bind_apply, mutateReservation_put_ok rfl hc hid, hid.symm, hs']

/-- `compensateOrder` run alone. -/
theorem compensateOrder_put (w : World) (ev : List PortEvent) (env : CompensationEnv)
    (x : Option String) (reason : CompensationReason) (hrid : r.id = o.reservationId) :
    (compensateOrder env o.id x reason).run (w.put o r ev)
      = some ((compensation env x reason o r).result,
          w.put (compensation env x reason o r).order (compensation env x reason o r).reservation
            (ev ++ (compensation env x reason o r).events)) := by
  unfold compensateOrder compensation
  simp only [Async.run_bind, Async.run_await, Sync.bind_apply, Sync.read_apply, put_orders_get,
    orNotFound, Async.run_pure, Sync.pure_apply]
  unfold lookUpHold
  simp only [Sync.bind_apply, derefOrder_put]
  by_cases hs : o.status = .cancelledRefunded
  · simp [hs]
  simp only [hs, if_false, Sync.bind_apply, Sync.read_apply, put_reservations_get hrid,
    Sync.pure_apply, Async.run_bind, Async.run_await]
  unfold releaseThenRequest
  rw [Sync.bind_apply, releaseHold_put]
  rcases hr : r.released with e | r'
  · simp
  -- with or without a suspension after the release, the same request is made
  have hreq := requestRefund_put w o r' ev env x reason
  rcases decide (r.status ≠ .cancelled ∧ r.status ≠ .expired) with _ | _ <;>
    rcases ht : o.refundTarget x with _ | t <;> rw [ht] at hreq
  · rcases hc : o.cancel with e | o' <;> rw [hc] at hreq <;> simp [Sync.bind_apply, hreq]
  · rcases hf : env.refund with e | result <;>
      simp [Sync.bind_apply, hreq, settleRefund_put, hf]
  · rcases hc : o.cancel with e | o' <;> rw [hc] at hreq <;> simp [Sync.bind_apply, hreq]
  · rcases hf : env.refund with e | result <;>
      simp [Sync.bind_apply, hreq, settleRefund_put, hf]

end Compensation

/-! ## Payment -/

section Payment

variable {w : World} {o : Order} {r : Reservation} {ev : List PortEvent}

theorem Order.confirm_ok {o o' : Order} {t : Option String} {at' : Time} {b : Bool}
    (h : o.confirm t at' = .ok (b, o')) : o.id = o'.id ∧ o.reservationId = o'.reservationId := by
  unfold confirm at h
  split_ifs at h <;> simp only [Except.ok.injEq, Prod.mk.injEq] at h <;> obtain ⟨-, rfl⟩ := h <;>
    exact ⟨rfl, rfl⟩

theorem Reservation.confirm_ok {r r' : Reservation} {now later : Time}
    (h : r.confirm now later = .ok r') : r.Open ∧ now ≤ r.expiresAt
      ∧ r' = { r with status := .confirmed } := by
  unfold confirm unlessExpired at h
  split_ifs at h with ho he
  simp only [Except.ok.injEq] at h
  exact ⟨ho, not_lt.1 he, h.symm⟩

theorem Order.markPaymentDeclined_ok {o o' : Order} (h : o.markPaymentDeclined = .ok o') :
    o.status = .paymentPending ∧ o' = { o with status := .paymentDeclined } := by
  unfold markPaymentDeclined at h
  split_ifs at h with hs
  simp only [Except.ok.injEq] at h
  exact ⟨not_not.1 hs, h.symm⟩

theorem Reservation.revertPaymentDecline_ok {r r' : Reservation}
    (h : r.revertPaymentDecline = .ok r') :
    r.status = .paymentPending ∧ r' = { r with status := .pending } := by
  unfold revertPaymentDecline at h
  split_ifs at h with hs
  simp only [Except.ok.injEq] at h
  exact ⟨not_not.1 hs, h.symm⟩

theorem recordCharge_put (env : PaymentEnv) (n : ℕ) {request : ChargeRequest}
    (result : ChargeResult) (st : PaymentStatus) (t reason : Option String)
    (h : o.id = request.orderId) :
    recordCharge env n request result st t reason (w.put o r ev)
      = some (.ok (), w.put (o.recordPaymentAttempt
          ⟨n, request.idempotencyKey, st, t, reason, env.attemptAt⟩) r
            (ev ++ [.chargeAnswered request result])) := by
  unfold recordCharge
  rw [Sync.bind_apply, record_put]
  exact mutateOrder_put_ok h rfl rfl

theorem confirmBoth_put (env : PaymentEnv) (t : Option String) :
    confirmBoth env o.id r.id t (w.put o r ev)
      = match env.issue with
        | .error e => some (.error e, w.put o r ev)
        | .ok () => match o.confirm t env.confirmAt with
          | .error e => some (.error e, w.put o r (ev ++ [.ticketIssued o.id]))
          | .ok (_, o') => match r.confirm env.checkAt env.later with
            | .error e => some (.error e, w.put o' r (ev ++ [.ticketIssued o.id]))
            | .ok r' => some (.ok (), w.put o' r' (ev ++ [.ticketIssued o.id])) := by
  unfold confirmBoth
  rcases env.issue with e | _
  · simp [Sync.bind_apply]
  rw [Sync.bind_apply, Sync.ofExcept_apply]
  simp only []
  rw [Sync.bind_apply, record_put]
  simp only []
  rcases hc : o.confirm t env.confirmAt with e | ⟨b, o'⟩
  · rw [Sync.bind_apply, mutateOrder_put_error (e := e) rfl (by rw [hc]; rfl)]
  · obtain ⟨hid, -⟩ := Order.confirm_ok hc
    rw [Sync.bind_apply, mutateOrder_put_ok rfl (show _ = Except.ok o' by rw [hc]; rfl) hid]
    simp only []
    rcases hr : r.confirm env.checkAt env.later with e | r'
    · rw [Sync.bind_apply, mutateReservation_put_error rfl hr]
    · obtain ⟨-, -, hr'⟩ := Reservation.confirm_ok hr
      rw [Sync.bind_apply, mutateReservation_put_ok rfl hr (by rw [hr'])]
      exact reservationRepoSave_put (by rw [hr'])

theorem postPaymentFailure_put (env : PaymentEnv) (result : ChargeResult) (cause : WorkflowError)
    (hrid : r.id = o.reservationId) :
    (postPaymentFailure env o.id result.transactionId cause).run (w.put o r ev)
      = some ((unfulfilled env result cause o r).result,
          w.put (unfulfilled env result cause o r).order
            (unfulfilled env result cause o r).reservation
            (ev ++ (unfulfilled env result cause o r).events)) := by
  unfold postPaymentFailure
  simp only [Async.run_bind, Async.run_await, Sync.bind_apply, orderRepoSave_put,
    compensateOrder_put _ _ env.compensation _ _ hrid, unfulfilled]
  rcases (compensation env.compensation result.transactionId (.fulfillment cause) o r).result
    with e | c <;> rfl

theorem fulfil_put (env : PaymentEnv) (n : ℕ) {request : ChargeRequest} {result : ChargeResult}
    {o₀ : Order} (hid : o₀.id = request.orderId) (hrid : r.id = o₀.reservationId)
    (ho : o = o₀.recordPaymentAttempt
      ⟨n, request.idempotencyKey, .success, result.transactionId, none, env.attemptAt⟩) :
    (fulfil env r.id n request result).run (w.put o₀ r ev)
      = some ((fulfilment env result o r).result, w.put (fulfilment env result o r).order
          (fulfilment env result o r).reservation (ev ++ .chargeAnswered request result
            :: .ticketRequested o.id :: (fulfilment env result o r).events)) := by
  have hid' : o.id = request.orderId := by rw [ho]; exact hid
  have hrid' : r.id = o.reservationId := by rw [ho]; exact hrid
  unfold fulfil
  simp only [Async.run_bind, Async.run_await, Async.run_tryCatch, Sync.bind_apply,
    recordCharge_put env n result _ _ _ hid, record_put, ← ho, Sync.tryCatch_apply]
  rw [← hid', confirmBoth_put]
  unfold fulfilment
  rcases env.issue with e | _
  · simp [postPaymentFailure_put env result e hrid']
  rcases hc : o.confirm result.transactionId env.confirmAt with e | ⟨b, o'⟩
  · simp [postPaymentFailure_put env result e hrid']
  obtain ⟨h1, h2⟩ := Order.confirm_ok hc
  rcases hr : r.confirm env.checkAt env.later with e | r'
  · simp [h1, postPaymentFailure_put env result e (hrid'.trans h2)]
  · simp [h1.symm]

theorem declineOrder_put (now : Time) (tail : Segment Unit) :
    declineOrder o.id r.id now tail (w.put o r ev)
      = match o.markPaymentDeclined with
        | .error e => some (.error e, w.put o r ev)
        | .ok o' =>
          if now ≤ r.expiresAt then
            match r.revertPaymentDecline with
            | .error e => some (.error e, w.put o' r ev)
            | .ok r' => some (.ok true, w.put o' r' ev)
          else (do tail; pure false : Segment Bool) (w.put o' r ev) := by
  unfold declineOrder
  rcases ho : o.markPaymentDeclined with e | o'
  · rw [Sync.bind_apply, mutateOrder_put_error rfl ho]
  have ho' := (Order.markPaymentDeclined_ok ho).2
  rw [Sync.bind_apply, mutateOrder_put_ok rfl ho (by rw [ho'])]
  simp only []
  rw [Sync.bind_apply, derefReservation_put rfl]
  simp only []
  split_ifs with hn
  · rcases hr : r.revertPaymentDecline with e | r'
    · rw [Sync.bind_apply, mutateReservation_put_error rfl hr]
    · have hr' := (Reservation.revertPaymentDecline_ok hr).2
      rw [Sync.bind_apply, mutateReservation_put_ok rfl hr (by rw [hr'])]
      simp only []
      rw [Sync.bind_apply, reservationRepoSave_put (by rw [hr'])]
      rfl
  · rfl

theorem declineCharge_put (env : PaymentEnv) (n : ℕ) {request : ChargeRequest}
    {result : ChargeResult} (st : PaymentStatus) (reason msg : String) {o₀ : Order}
    (hid : o₀.id = request.orderId)
    (ho : o = o₀.recordPaymentAttempt ⟨n, request.idempotencyKey, st, none,
      some ((truthy result.errorMessage).getD reason), env.attemptAt⟩)
    {d : Effect ProcessPaymentResult} (hd : d = declination o r env.checkAt
      ⟨false, .paymentDeclined, none, true, false, false,
        some (.text ((truthy result.errorMessage).getD msg))⟩) :
    (declineCharge env r.id n request result st reason msg).run (w.put o₀ r ev)
      = some (d.result, w.put d.order d.reservation
          (ev ++ .chargeAnswered request result :: d.events)) := by
  have hid' : o.id = request.orderId := by rw [ho]; exact hid
  unfold declineCharge
  simp only [Async.run_bind, Async.run_await, Sync.bind_apply,
    recordCharge_put env n result _ _ _ hid, ← ho]
  rw [← hid', declineOrder_put, hd]
  unfold declination
  rcases hm : o.markPaymentDeclined with e | o'
  · rfl
  have ho' := (Order.markPaymentDeclined_ok hm).2
  have hid₁ : o'.id = o.id := by rw [ho']
  simp only []
  split_ifs with hn
  · rcases r.revertPaymentDecline with e | r'
    · rfl
    · simp [hid₁, Sync.bind_apply]
  · simp [hid₁, Sync.bind_apply]

theorem Order.retried_id (o : Order) : o.retried.id = o.id := by
  unfold retried
  split_ifs <;> rfl

theorem Order.retried_reservationId (o : Order) : o.retried.reservationId = o.reservationId := by
  unfold retried
  split_ifs <;> rfl

theorem startCharge_put (env : PaymentEnv) {command : ProcessPaymentCommand}
    (hid : command.orderId = o.id) :
    startCharge env command (w.put o r ev)
      = match o.paidAttempt command.idempotencyKey with
        | some attempt => some (.ok (.inl ⟨true, o.status, attempt.providerTransactionId, false,
            false, true,
            some (.text "Payment already successfully processed for this idempotency key")⟩),
            w.put o r ev)
        | none =>
          if o.status = .confirmed then
            some (.ok (.inl ⟨true, .confirmed, o.providerTransactionId, false, false, true,
              some (.text "Order already confirmed")⟩), w.put o r ev)
          else some (.ok (.inr (o.paymentAttempts.length + 1, chargeRequest env command o)),
            w.put o.retried r (ev ++ [.chargeRequested (chargeRequest env command o)])) := by
  unfold startCharge
  rw [hid, Sync.bind_apply, derefOrder_put rfl]
  simp only []
  rcases o.paidAttempt command.idempotencyKey with _ | a
  · simp only []
    by_cases hc : o.status = .confirmed
    · simp [hc]
    rw [if_neg hc, if_neg hc]
    unfold Order.retried
    by_cases hd : o.status = .paymentDeclined
    · have hr : o.retryPayment = .ok { o with status := .paymentPending } := by
        simp [Order.retryPayment, hd]
      simp [hd, Sync.bind_apply, mutateOrder_put_ok rfl hr rfl, chargeRequest]
    · simp [hd, Sync.bind_apply, chargeRequest]
  · rfl

/-- `processPayment` run alone. -/
theorem processPayment_run (env : PaymentEnv) {command : ProcessPaymentCommand}
    (ho : w.orders.get command.orderId = some o)
    (hr : w.reservations.get o.reservationId = some r) :
    (processPayment env command).run w
      = some ((payment env command o r).result, w.apply (payment env command o r)) := by
  have hid : o.id = command.orderId := w.orders.get_key ho
  have hrid : r.id = o.reservationId := w.reservations.get_key hr
  have hw : w = w.put o r [] := (World.put_self (hid ▸ ho) (hrid ▸ hr)).symm
  unfold processPayment
  simp only [Async.run_bind, Async.run_await, Sync.bind_apply, Sync.read_apply, ho, hr,
    orNotFound, Async.run_pure, Sync.pure_apply]
  unfold payment World.apply
  conv_lhs => rw [hw, startCharge_put env hid.symm]
  rcases o.paidAttempt command.idempotencyKey with _ | a
  · simp only []
    split_ifs with hc
    · rw [World.put_self (hid ▸ ho) (hrid ▸ hr)]
      rfl
    simp only []
    have hreq : o.retried.id = (chargeRequest env command o).orderId := o.retried_id
    have hres : r.id = o.retried.reservationId := by rw [o.retried_reservationId, hrid]
    rcases env.charge with e | ⟨_ | _ | _ | _, txn, msg⟩
    · rfl
    · have hid' : (o.retried.recordPaymentAttempt ⟨o.paymentAttempts.length + 1,
          command.idempotencyKey, .success, txn, none, env.attemptAt⟩).id = o.id := o.retried_id
      simp only [fulfil_put env _ hreq hres rfl, List.nil_append, List.cons_append, charged,
        Order.attempted]
      rw [← hid']
      rfl
    · simp only [declineCharge_put env _ _ _ _ hreq rfl rfl]
      rfl
    · simp only [Async.run_bind, Async.run_await, Sync.bind_apply,
        recordCharge_put env _ _ _ _ _ hreq, List.nil_append]
      rw [orderRepoSave_put (o := o.retried.recordPaymentAttempt _) hreq]
      rfl
    · simp only [declineCharge_put env _ _ _ _ hreq rfl rfl]
      rfl
  · simp only []
    rw [World.put_self (hid ▸ ho) (hrid ▸ hr)]
    rfl

end Payment

/-! ## Callbacks -/

section Callbacks

variable {w : World} {o : Order} {r : Reservation} {ev : List PortEvent}

@[simp] theorem put_addEvent (self : ℕ) (eventId : String) :
    addEvent self eventId (w.put o r ev) = some (.ok (), (w.addEvent self eventId).put o r ev) :=
  rfl

/-- `handlePaymentWebhook` run alone, for an event its instance has not seen. -/
theorem handlePaymentWebhook_run (env : WebhookEnv) {self : ℕ} {payload : PaymentWebhookPayload}
    (hnew : payload.eventId ∉ w.processedWebhookEvents self)
    (ho : w.orders.get payload.orderId = some o)
    (hr : w.reservations.get o.reservationId = some r) (hc : o.status ≠ .confirmed) :
    (handlePaymentWebhook env self payload).run w
      = some ((callback env payload o r).result,
          (match (callback env payload o r).result with
            | .ok _ => w.addEvent self payload.eventId
            | .error _ => w).apply (callback env payload o r)) := by
  have hid : o.id = payload.orderId := w.orders.get_key ho
  have hrid : r.id = o.reservationId := w.reservations.get_key hr
  have hw : w = w.put o r [] := (World.put_self (hid ▸ ho) (hrid ▸ hr)).symm
  unfold handlePaymentWebhook
  simp only [Async.run_bind, Async.run_await, Sync.bind_apply, Sync.read_apply, ho, hr, hnew,
    orNotFound, Async.run_pure, Sync.pure_apply, decide_false, Bool.false_eq_true, if_false]
  unfold callback World.apply applyWebhook
  conv_lhs => rw [hw]
  rw [← hid]
  simp only [Sync.bind_apply, derefOrder_put, derefReservation_put, if_neg hc]
  split_ifs with hs he
  · simp [Sync.bind_apply, mutateOrder, Order.markRefundRequired]
  · rcases hco : o.confirm (some payload.providerTransactionId) env.confirmAt with e | ⟨b, o'⟩
    · rw [Sync.bind_apply, mutateOrder_put_error (e := e) rfl (by rw [hco]; rfl)]
    obtain ⟨h1, h2⟩ := Order.confirm_ok hco
    rw [Sync.bind_apply, mutateOrder_put_ok rfl (show _ = Except.ok o' by rw [hco]; rfl) h1]
    simp only []
    rcases hcr : r.confirm env.checkAt env.later with e | r'
    · rw [Sync.bind_apply, mutateReservation_put_error rfl hcr]
    · have hr' := (Reservation.confirm_ok hcr).2.2
      rw [Sync.bind_apply, mutateReservation_put_ok rfl hcr (by rw [hr'])]
      have hrid' : r'.id = r.id := by rw [hr']
      simp [Sync.bind_apply, hrid', h1.symm]
  · rw [Sync.bind_apply, declineOrder_put]
    unfold declination
    rcases hm : o.markPaymentDeclined with e | o'
    · rfl
    have hid' : o'.id = o.id := by rw [(Order.markPaymentDeclined_ok hm).2]
    simp only []
    split_ifs with hn
    · rcases r.revertPaymentDecline with e | r'
      · rfl
      · simp [Sync.bind_apply, hid']
    · simp [Sync.bind_apply, hid']

end Callbacks

/-! ## Any call -/

section Calls

variable {w : World} {o : Order} {r : Reservation}

theorem leaves_same {α : Type} {e : Effect α} (ho : w.orders.get o.id = some o)
    (hr : w.reservations.get r.id = some r) (he : e.order = o) (he' : e.reservation = r)
    (hev : e.events = []) {w' : World} (hs : SameStores w w') : Leaves w e w' := by
  refine ⟨?_, ?_, ?_⟩
  · rw [hs.orders, he, Repository.save_get ho]
  · rw [hs.reservations, he', Repository.save_get hr]
  · rw [hs.log, hev, List.append_nil]

/-- A program whose answer is wrapped. -/
theorem run_map {α : Type} (p : Flow α) (f : α → Reply) {w w' : World}
    {res : Except WorkflowError α} (h : p.run w = some (res, w')) :
    (do let a ← p; pure (f a) : Flow Reply).run w = some (res.map f, w') := by
  rw [Async.run_bind, Sync.bind_apply, h]
  rcases res with e | a <;> rfl

theorem run_map_inv {α : Type} {p : Flow α} {f : α → Reply} {w w' : World}
    {reply : Except WorkflowError Reply}
    (h : (do let a ← p; pure (f a) : Flow Reply).run w = some (reply, w')) :
    ∃ res, p.run w = some (res, w') ∧ reply = res.map f := by
  rw [Async.run_bind, Sync.bind_apply] at h
  rcases hp : p.run w with _ | ⟨e | a, w₁⟩ <;> rw [hp] at h <;>
    simp only [Async.run_pure, Sync.pure_apply, Option.some.injEq, Prod.mk.injEq, reduceCtorEq] at h
  · obtain ⟨rfl, rfl⟩ := h
    exact ⟨.error e, rfl, rfl⟩
  · obtain ⟨rfl, rfl⟩ := h
    exact ⟨.ok a, rfl, rfl⟩

theorem Reservation.expire_ok {r r' : Reservation} {now later : Time}
    (h : r.expire now later = .ok r') : r.Open ∧ r.expiresAt < now
      ∧ r' = { r with status := .expired } := by
  unfold expire at h
  split_ifs at h with ho hn
  simp only [Except.ok.injEq] at h
  exact ⟨ho, not_le.1 hn, h.symm⟩

theorem webhook_run (env : WebhookEnv) (self : ℕ) {payload : PaymentWebhookPayload}
    (ho : w.orders.get payload.orderId = some o)
    (hr : w.reservations.get o.reservationId = some r) :
    ∃ w', (handlePaymentWebhook env self payload).run w
        = some ((webhook env (w.processedWebhookEvents self) payload o r).result, w')
      ∧ Leaves w (webhook env (w.processedWebhookEvents self) payload o r) w' := by
  have hid : o.id = payload.orderId := w.orders.get_key ho
  have hrid : r.id = o.reservationId := w.reservations.get_key hr
  have ho' : w.orders.get o.id = some o := by rw [hid, ho]
  have hr' : w.reservations.get r.id = some r := by rw [hrid, hr]
  unfold webhook
  by_cases hseen : payload.eventId ∈ w.processedWebhookEvents self
  · refine ⟨w, ?_, ?_⟩
    · unfold handlePaymentWebhook
      simp [Sync.bind_apply, hseen, ho, duplicateStatus, derefOrder, hid]
    · rw [if_pos hseen]
      exact leaves_same ho' hr' rfl rfl rfl ⟨rfl, rfl, rfl⟩
  rw [if_neg hseen]
  by_cases hc : o.status = .confirmed
  · refine ⟨w.addEvent self payload.eventId, ?_, ?_⟩
    · unfold handlePaymentWebhook applyWebhook
      simp [Sync.bind_apply, hseen, ho, hr, orNotFound, derefOrder, derefReservation, hrid, hc,
        addEvent]
    · rw [if_pos hc]
      exact leaves_same ho' hr' rfl rfl rfl ⟨rfl, rfl, rfl⟩
  · rw [if_neg hc]
    refine ⟨_, handlePaymentWebhook_run env hseen ho hr hc, ?_⟩
    rcases (callback env payload o r).result with e | a <;> exact ⟨rfl, rfl, rfl⟩

theorem compensateOrder_run (env : CompensationEnv) (x : Option String)
    (reason : CompensationReason) {id : String} (ho : w.orders.get id = some o)
    (hr : w.reservations.get o.reservationId = some r) :
    (compensateOrder env id x reason).run w
      = some ((compensation env x reason o r).result, w.apply (compensation env x reason o r)) := by
  have hid : o.id = id := w.orders.get_key ho
  have hrid : r.id = o.reservationId := w.reservations.get_key hr
  have hw : w = w.put o r [] := (World.put_self (hid ▸ ho) (hrid ▸ hr)).symm
  have h := compensateOrder_put w [] env x reason hrid
  rw [← hw, hid] at h
  rw [h, List.nil_append]
  rfl

/-- A call about a stored order has its effect. -/
theorem Call.run_effect {c : Call} {id : String} (hc : c.orderId = some id)
    (ho : w.orders.get id = some o) (hr : w.reservations.get o.reservationId = some r) :
    ∃ w', c.run w = some ((c.effect w o r).result, w') ∧ Leaves w (c.effect w o r) w' := by
  have hid : o.id = id := w.orders.get_key ho
  have hrid : r.id = o.reservationId := w.reservations.get_key hr
  cases c with
  | initiateCheckout => simp [orderId] at hc
  | expire => simp [orderId] at hc
  | processPayment env command =>
    obtain rfl : command.orderId = id := by simpa [orderId] using hc
    exact ⟨_, run_map _ _ (processPayment_run env ho hr), rfl, rfl, rfl⟩
  | handlePaymentWebhook env self payload =>
    obtain rfl : payload.orderId = id := by simpa [orderId] using hc
    obtain ⟨w', hrun, hl⟩ := webhook_run env self ho hr
    exact ⟨w', run_map _ _ hrun, hl.orders, hl.reservations, hl.log⟩
  | compensateOrder env orderId x reason =>
    obtain rfl : orderId = id := by simpa [Call.orderId] using hc
    exact ⟨_, run_map _ _ (compensateOrder_run env x reason ho hr), rfl, rfl, rfl⟩
  | retryCompensation env orderId =>
    obtain rfl : orderId = id := by simpa [Call.orderId] using hc
    simp only [effect]
    by_cases hs : o.status = .compensationPending
    · rw [if_neg (by simpa using hs)]
      refine ⟨w.apply (compensation env none .retry o r), run_map _ _ ?_, rfl, rfl, rfl⟩
      have h := compensateOrder_run env none .retry ho hr
      unfold LaunchPad.retryCompensation checkRetry
      simp [Sync.bind_apply, ho, orNotFound, derefOrder, hs, h]
    · rw [if_pos hs]
      have h : (LaunchPad.retryCompensation env orderId).run w = some (.error (.error
          ("Cannot retry compensation for order with status: " ++ o.status.name)), w) := by
        unfold LaunchPad.retryCompensation checkRetry
        simp [Sync.bind_apply, ho, orNotFound, derefOrder, hs]
      exact ⟨w, run_map _ _ h, leaves_same (hid ▸ ho) (hrid ▸ hr) rfl rfl rfl ⟨rfl, rfl, rfl⟩⟩

/-- The order of a call, and the order's reservation, are the ones at hand. -/
theorem Call.exists_own_iff {c : Call} {id : String} (hc : c.orderId = some id)
    (ho : w.orders.get id = some o) (hr : w.reservations.get o.reservationId = some r)
    {P : String → Order → Reservation → Prop} :
    (∃ id o r, c.orderId = some id ∧ w.orders.get id = some o
      ∧ w.reservations.get o.reservationId = some r ∧ P id o r) ↔ P id o r := by
  refine ⟨?_, fun h => ⟨id, o, r, hc, ho, hr, h⟩⟩
  rintro ⟨id₁, o₁, r₁, hc₁, ho₁, hr₁, h⟩
  obtain rfl := Option.some.inj (hc.symm.trans hc₁)
  obtain rfl := Option.some.inj (ho.symm.trans ho₁)
  obtain rfl := Option.some.inj (hr.symm.trans hr₁)
  exact h

theorem Call.run_eq_effect {c : Call} {id : String} {reply : Except WorkflowError Reply}
    {w' : World}
    (h : c.run w = some (reply, w')) (hc : c.orderId = some id) (ho : w.orders.get id = some o)
    (hr : w.reservations.get o.reservationId = some r) :
    reply = (c.effect w o r).result ∧ Leaves w (c.effect w o r) w' := by
  obtain ⟨w'', hrun, hleaves⟩ := Call.run_effect hc ho hr
  rw [h] at hrun
  simp only [Option.some.injEq, Prod.mk.injEq] at hrun
  obtain ⟨hreply, rfl⟩ := hrun
  exact ⟨hreply, hleaves⟩

/-- A call about an order that is not stored changes nothing. -/
theorem Call.run_missing {c : Call} {id : String} (hc : c.orderId = some id)
    (ho : w.orders.get id = none) : ∃ reply, c.run w = some (reply, w) := by
  have hfound : ∀ {α : Type} (text : String) (f : Order → Flow α),
      (Async.await (Sync.read (·.orders.get id)) >>= fun found =>
        orNotFound text id found >>= f).run w = some (.error (.error (text ++ id)), w) := by
    intro α text f
    simp [Sync.bind_apply, ho, orNotFound]
  cases c with
  | initiateCheckout => simp [orderId] at hc
  | expire => simp [orderId] at hc
  | processPayment env command =>
    obtain rfl : command.orderId = id := by simpa [orderId] using hc
    exact ⟨_, run_map _ _ (hfound _ _)⟩
  | handlePaymentWebhook env self payload =>
    obtain rfl : payload.orderId = id := by simpa [orderId] using hc
    by_cases hseen : payload.eventId ∈ w.processedWebhookEvents self
    · have h : (LaunchPad.handlePaymentWebhook env self payload).run w = some (.ok ⟨true,
          .duplicateIgnored, .confirmed,
          "Webhook event " ++ payload.eventId ++ " has already been processed", false⟩, w) := by
        unfold LaunchPad.handlePaymentWebhook
        simp [Sync.bind_apply, hseen, ho, duplicateStatus]
      exact ⟨_, run_map _ _ h⟩
    · have h : (LaunchPad.handlePaymentWebhook env self payload).run w
          = some (.error (.error ("Order not found for webhook: " ++ payload.orderId)), w) := by
        unfold LaunchPad.handlePaymentWebhook
        simp [Sync.bind_apply, hseen, ho, orNotFound]
      exact ⟨_, run_map _ _ h⟩
  | compensateOrder env orderId x reason =>
    obtain rfl : orderId = id := by simpa [Call.orderId] using hc
    exact ⟨_, run_map _ _ (hfound _ _)⟩
  | retryCompensation env orderId =>
    obtain rfl : orderId = id := by simpa [Call.orderId] using hc
    exact ⟨_, run_map _ _ (hfound _ _)⟩

/-- A PENDING reservation that has not run out goes to PAYMENT_PENDING. -/
theorem startCheckout_ok {env : CheckoutEnv} {rid : String}
    (hr : w.reservations.get rid = some r) (hs : r.status = .pending)
    (hn : env.now ≤ r.expiresAt) : startCheckout env rid w
      = some (.ok (), w.saveReservation { r with status := .paymentPending }) := by
  have hderef : derefReservation rid w = some (.ok r, w) := by simp [derefReservation, hr]
  set r' : Reservation := { r with status := .paymentPending } with hr'
  have hget : (w.saveReservation r').reservations.get rid = some r' := by
    rw [← w.reservations.get_key hr]
    exact Repository.get_save_self _ r'
  have hderef' : derefReservation rid (w.saveReservation r')
      = some (.ok r', w.saveReservation r') := by simp [derefReservation, hget]
  have hsave : (w.saveReservation r').saveReservation r' = w.saveReservation r' := by
    unfold World.saveReservation
    simp only [Repository.save_save rfl]
  unfold startCheckout
  simp only [hderef, ne_eq, hs, not_true_eq_false, if_false, Sync.bind_apply, mutateReservation,
    Sync.ofExcept_apply, Reservation.startPayment, Reservation.unlessExpired, not_lt.2 hn,
    Sync.modify_apply, reservationRepoSave, ← hr', hderef', hsave]

/-- The payment of a stored reservation is started, where it is PENDING and has not expired. -/
theorem startCheckout_apply (env : CheckoutEnv) {rid : String}
    (hr : w.reservations.get rid = some r) :
    (∃ e, startCheckout env rid w = some (.error e, w))
      ∨ r.status = .pending ∧ env.now ≤ r.expiresAt ∧ startCheckout env rid w
        = some (.ok (), w.saveReservation { r with status := .paymentPending }) := by
  have hderef : derefReservation rid w = some (.ok r, w) := by simp [derefReservation, hr]
  by_cases hs : r.status = .pending
  swap
  · refine .inl ⟨.error ("Cannot checkout reservation with status: " ++ r.status.name), ?_⟩
    simp only [startCheckout, Sync.bind_apply, hderef, ne_eq, hs, not_false_eq_true, if_true,
      Sync.throw_apply]
  by_cases hn : r.expiresAt < env.now
  · refine .inl ⟨.reservationExpired r.expiresAt env.later, ?_⟩
    simp only [startCheckout, Sync.bind_apply, hderef, ne_eq, hs, not_true_eq_false, if_false,
      mutateReservation, Sync.ofExcept_apply, Reservation.startPayment, Reservation.unlessExpired,
      hn, if_true]
  exact .inr ⟨hs, not_lt.1 hn, startCheckout_ok hr hs (not_lt.1 hn)⟩

/-- The new order is stored, under an id that no order has. -/
theorem createOrder_eq_some {env : CheckoutEnv} {command : InitiateCheckoutCommand}
    {res : Except WorkflowError Order} {w' : World}
    (hr : w.reservations.get command.reservationId = some r)
    (h : createOrder env command w = some (res, w')) :
    w.orders.get env.orderId.val = none ∧ res = .ok (.ofReservation env.orderId r command.totalAmount)
      ∧ w' = w.saveOrder (.ofReservation env.orderId r command.totalAmount) := by
  have hderef : derefReservation command.reservationId w = some (.ok r, w) := by
    simp [derefReservation, hr]
  unfold createOrder at h
  simp only [Sync.bind_apply, hderef] at h
  by_cases hfresh : w.orders.get env.orderId.val = none
  · have hwait : (Sync.waitFor fun w : World => w.orders.get env.orderId.val = none : Segment Unit) w
        = some (.ok (), w) := if_pos hfresh
    simp only [hwait, Sync.modify_apply, Sync.pure_apply, Option.some.injEq, Prod.mk.injEq] at h
    exact ⟨hfresh, h.1.symm, h.2.symm⟩
  · have hwait : (Sync.waitFor fun w : World => w.orders.get env.orderId.val = none : Segment Unit) w
        = none := if_neg hfresh
    simp [hwait] at h

/-- `initiateCheckout` throws and changes nothing, or starts the payment of a PENDING reservation
and stores a new order for it. -/
theorem initiateCheckout_cases {env : CheckoutEnv} {command : InitiateCheckoutCommand}
    {res : Except WorkflowError Order} {w' : World}
    (h : (initiateCheckout env command).run w = some (res, w')) :
    (w' = w ∧ ∃ e, res = .error e)
      ∨ ∃ r, w.reservations.get command.reservationId = some r ∧ r.status = .pending
        ∧ env.now ≤ r.expiresAt ∧ w.orders.get env.orderId.val = none
        ∧ res = .ok (.ofReservation env.orderId r command.totalAmount)
        ∧ w' = (w.saveReservation { r with status := .paymentPending }).saveOrder
            (.ofReservation env.orderId r command.totalAmount) := by
  unfold initiateCheckout at h
  rcases hr : w.reservations.get command.reservationId with _ | r
  · left
    simp only [Async.run_bind, Async.run_await, Sync.bind_apply, Sync.read_apply, hr, orNotFound,
      Async.run_throw, Sync.throw_apply, Option.some.injEq, Prod.mk.injEq] at h
    exact ⟨h.2.symm, _, h.1.symm⟩
  simp only [Async.run_bind, Async.run_await, Sync.bind_apply, Sync.read_apply, hr, orNotFound,
    Async.run_pure, Sync.pure_apply] at h
  rcases startCheckout_apply env hr with ⟨e, hstart⟩ | ⟨hs, hn, hstart⟩
  · left
    simp only [hstart, Option.some.injEq, Prod.mk.injEq] at h
    exact ⟨h.2.symm, _, h.1.symm⟩
  · right
    simp only [hstart] at h
    have hget : (w.saveReservation { r with status := .paymentPending }).reservations.get
        command.reservationId = some { r with status := .paymentPending } := by
      rw [← w.reservations.get_key hr]
      exact Repository.get_save_self _ _
    obtain ⟨hfresh, hres, hw'⟩ := createOrder_eq_some hget h
    exact ⟨r, rfl, hs, hn, hfresh, hres, hw'⟩

/-- What a call that runs alone does to the stores: nothing, where it has no order, its effect on
its order and the order's reservation, a checkout, or the expiry of a reservation. -/
theorem Call.cases (hl : w.Linked) {c : Call} {reply : Except WorkflowError Reply} {w' : World}
    (h : c.run w = some (reply, w')) :
    (SameStores w w' ∧ ∀ id, c.orderId = some id → w.orders.get id = none)
      ∨ (∃ id o r, c.orderId = some id ∧ w.orders.get id = some o
          ∧ w.reservations.get o.reservationId = some r ∧ reply = (c.effect w o r).result
          ∧ Leaves w (c.effect w o r) w')
      ∨ (∃ (id : Uuid) (r : Reservation) (amount : Money), c.orderId = none
          ∧ w.reservations.get r.id = some r ∧ r.status = .pending ∧ w.orders.get id.val = none
          ∧ w' = (w.saveReservation { r with status := .paymentPending }).saveOrder
              (.ofReservation id r amount))
      ∨ ∃ r : Reservation, c.orderId = none ∧ w.reservations.get r.id = some r ∧ r.Open
          ∧ w' = w.saveReservation { r with status := .expired } := by
  rcases hid : c.orderId with _ | id
  · cases c with
    | initiateCheckout env command =>
      obtain ⟨res, hrun, -⟩ := run_map_inv h
      rcases initiateCheckout_cases hrun with ⟨rfl, -⟩ | ⟨r, hr, hs, -, hfresh, -, hw'⟩
      · exact .inl ⟨⟨rfl, rfl, rfl⟩, by simp⟩
      · have hrid : r.id = command.reservationId := w.reservations.get_key hr
        exact .inr (.inr (.inl ⟨env.orderId, r, command.totalAmount, rfl, hrid ▸ hr, hs, hfresh,
          hw'⟩))
    | expire now later rid =>
      obtain ⟨res, hrun, -⟩ := run_map_inv h
      rw [Async.run_await] at hrun
      rcases hr : w.reservations.get rid with _ | r
      · simp [mutateReservation, Sync.bind_apply, derefReservation, hr] at hrun
      have hrid : r.id = rid := w.reservations.get_key hr
      have hderef : derefReservation rid w = some (.ok r, w) := by simp [derefReservation, hr]
      simp only [mutateReservation, Sync.bind_apply, hderef, Sync.ofExcept_apply] at hrun
      rcases he : r.expire now later with e | r' <;> rw [he] at hrun <;>
        simp only [Sync.modify_apply, Option.some.injEq, Prod.mk.injEq] at hrun <;>
        obtain ⟨-, rfl⟩ := hrun
      · exact .inl ⟨⟨rfl, rfl, rfl⟩, by simp⟩
      · obtain ⟨hopen, -, rfl⟩ := Reservation.expire_ok he
        exact .inr (.inr (.inr ⟨r, rfl, hrid ▸ hr, hopen, rfl⟩))
    | processPayment => simp [orderId] at hid
    | handlePaymentWebhook => simp [orderId] at hid
    | compensateOrder => simp [orderId] at hid
    | retryCompensation => simp [orderId] at hid
  · rcases ho : w.orders.get id with _ | o
    · obtain ⟨reply', hrun⟩ := Call.run_missing hid ho
      rw [h] at hrun
      simp only [Option.some.injEq, Prod.mk.injEq] at hrun
      refine .inl ⟨hrun.2 ▸ ⟨rfl, rfl, rfl⟩, fun id' hid' => ?_⟩
      rw [← Option.some.inj hid', ho]
    · obtain ⟨r, hr⟩ := hl id o ho
      obtain ⟨hreply, hleaves⟩ := Call.run_eq_effect h hid ho hr
      exact .inr (.inl ⟨id, o, r, rfl, ho, hr, hreply, hleaves⟩)

theorem run_of_runCalls {w₀ : World} : ∀ (cs : List Call) {steps steps' : List Step} {w w' : World},
    Run w₀ steps w → runCalls steps w cs = some (steps', w') →
      Run w₀ steps' w' ∧ steps'.map Step.call = steps.map Step.call ++ cs
  | [], steps, steps', w, w', hrun, h => by
    simp only [runCalls, Option.some.injEq, Prod.mk.injEq] at h
    obtain ⟨rfl, rfl⟩ := h
    exact ⟨hrun, by simp⟩
  | c :: cs, steps, steps', w, w', hrun, h => by
    rw [runCalls] at h
    rcases hc : c.run w with _ | ⟨reply, w₁⟩ <;> rw [hc] at h
    · simp at h
    · obtain ⟨h1, h2⟩ := run_of_runCalls cs (hrun.snoc c hc) h
      exact ⟨h1, by simp [h2]⟩

theorem run_runCalls {w₀ : World} {cs : List Call} (h : (runCalls [] w₀ cs).isSome) :
    Run w₀ ((runCalls [] w₀ cs).get h).1 ((runCalls [] w₀ cs).get h).2
      ∧ ((runCalls [] w₀ cs).get h).1.map Step.call = cs :=
  run_of_runCalls cs .nil (Option.some_get h).symm

theorem heldWorld_initial : heldWorld.Initial := ⟨rfl, fun _ => rfl, rfl⟩

end Calls

end LaunchPad
