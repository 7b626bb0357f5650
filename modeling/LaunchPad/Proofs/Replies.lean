import LaunchPad.Proofs.Callback

/-!
# What calls say, and what they leave when they throw

A payment reports a status at each of its returns, and a callback changes its order and then its
reservation, with a guard in between. For every order and reservation a call can meet, this module
says when the payment's report is the stored order's status (`payment_truthful_iff`), and when a
callback that throws has changed nothing (`throws_cleanly_iff`).
-/

namespace LaunchPad

open Interleave Rows

variable {w : World} {o : Order} {r : Reservation}

/-! ## Payments -/

/-- Where the payment returns, its status is the stored order's, and it reports success just if that
is CONFIRMED. -/
def ProcessPaymentCommand.Truthful (command : ProcessPaymentCommand) (env : PaymentEnv)
    (w : World) : Prop :=
  ∀ result w', (Call.processPayment env command).run w = some (.ok (.payment result), w') →
    ∃ o, w'.orders.get command.orderId = some o ∧ result.status = o.status
      ∧ (result.success = true ↔ o.status = .confirmed)

/-- The payment finds its key paid although the order is not CONFIRMED, or its charge times out on an
order that was not to be paid. -/
def ProcessPaymentCommand.Misreports (command : ProcessPaymentCommand) (env : PaymentEnv)
    (o : Order) : Prop :=
  o.status ≠ .confirmed
    ∧ (o.paidAttempt command.idempotencyKey ≠ none
      ∨ (∃ result, env.charge = .ok result ∧ result.status = .timeout)
        ∧ o.status ≠ .paymentPending ∧ o.status ≠ .paymentDeclined)

/-- The result `b` tells the truth about the order the effect leaves. -/
def Effect.Tells (e : Effect ProcessPaymentResult) (b : ProcessPaymentResult) : Prop :=
  b.status = e.order.status ∧ (b.success = true ↔ e.order.status = .confirmed)

/-- What a compensation answers is the order's status, which is not CONFIRMED. -/
theorem compensation_status {env : CompensationEnv} {x : Option String}
    {reason : CompensationReason} {c : CompensationResult}
    (h : (compensation env x reason o r).result = .ok c) :
    c.status = (compensation env x reason o r).order.status ∧ c.status ≠ .confirmed := by
  unfold compensation at h ⊢
  split_ifs at h ⊢ with hs
  · obtain rfl := Except.ok.inj h
    exact ⟨hs.symm, by simp⟩
  · rcases hrel : r.released with e | r' <;> simp only [hrel] at h ⊢
    · simp at h
    · rcases ht : o.refundTarget x with _ | t <;> simp only [ht] at h ⊢
      · rcases hc : o.cancel with e | o' <;> simp only [hc] at h ⊢
        · simp at h
        · obtain rfl := Except.ok.inj h
          obtain ⟨-, rfl⟩ := Order.cancel_ok hc
          exact ⟨rfl, by simp⟩
      · rcases hf : env.refund with e | result <;> simp only [hf] at h ⊢
        · simp at h
        · obtain rfl := Except.ok.inj h
          rcases result with ⟨_ | _ | _, rt, m⟩ <;> exact ⟨rfl, by simp [RefundResult.answer]⟩

theorem unfulfilled_tells {env : PaymentEnv} {result : ChargeResult} {cause : WorkflowError}
    {b : ProcessPaymentResult} (h : (unfulfilled env result cause o r).result = .ok b) :
    (unfulfilled env result cause o r).Tells b := by
  simp only [unfulfilled] at h
  rcases hc : (compensation env.compensation result.transactionId (.fulfillment cause) o r).result
    with e | c <;> rw [hc] at h
  · simp [Except.map] at h
  · obtain rfl := Except.ok.inj h
    obtain ⟨hstatus, hne⟩ := compensation_status hc
    exact ⟨hstatus, by simpa [unfulfilled, ← hstatus] using hne⟩

theorem fulfilment_tells {env : PaymentEnv} {result : ChargeResult} {b : ProcessPaymentResult}
    (hs : o.status ≠ .confirmed) (h : (fulfilment env result o r).result = .ok b) :
    (fulfilment env result o r).Tells b := by
  unfold fulfilment at h ⊢
  rcases hi : env.issue with e | ⟨⟩ <;> simp only [hi] at h ⊢
  · exact unfulfilled_tells h
  · rw [Order.confirm_eq hs] at h ⊢
    split_ifs at h ⊢ with hc
    · rcases hr : r.confirm env.checkAt env.later with e | r' <;> simp only [hr] at h ⊢
      · exact unfulfilled_tells h
      · obtain rfl := Except.ok.inj h
        simp [Effect.Tells, Order.confirmedBy]
    · exact unfulfilled_tells h

theorem declination_tells {now : Time} {a b : ProcessPaymentResult}
    (ha : a.success = false ∧ a.status = .paymentDeclined)
    (h : (declination o r now a).result = .ok b) : (declination o r now a).Tells b := by
  unfold declination at h ⊢
  rcases hd : o.markPaymentDeclined with e | o' <;> simp only [hd] at h ⊢
  · simp at h
  · obtain ⟨-, rfl⟩ := Order.markPaymentDeclined_ok hd
    split_ifs at h ⊢
    · rcases hr : r.revertPaymentDecline with e | r' <;> simp only [hr] at h ⊢
      · simp at h
      · obtain rfl := Except.ok.inj h
        simp [Effect.Tells, ha]
    · obtain rfl := Except.ok.inj h
      simp [Effect.Tells, ha]

/-- A payment that returns tells the truth unless it misreports. -/
theorem payment_tells_iff {env : PaymentEnv} {command : ProcessPaymentCommand} :
    (∀ b, (payment env command o r).result = .ok b → (payment env command o r).Tells b)
      ↔ ¬ command.Misreports env o := by
  unfold ProcessPaymentCommand.Misreports
  rcases hp : o.paidAttempt command.idempotencyKey with _ | a
  · by_cases hs : o.status = .confirmed
    · simp [payment, hp, hs, Effect.Tells]
    · rcases hq : env.charge with e | result
      · simp [payment, hp, hs, hq]
      · rcases result with ⟨_ | _ | _ | _, t, m⟩
        · refine iff_of_true (fun b hb => ?_) (by simp)
          simp only [payment, hp, if_neg hs, hq, charged] at hb ⊢
          refine fulfilment_tells ?_ hb
          rw [Order.attempted_status, Order.retried_status]
          split_ifs <;> simp_all
        · refine iff_of_true (fun b hb => ?_) (by simp)
          simp only [payment, hp, if_neg hs, hq, charged] at hb ⊢
          exact declination_tells ⟨rfl, rfl⟩ hb
        · -- PAYMENT_PENDING is reported, whatever the order is
          simp only [payment, hp, if_neg hs, hq, charged, Except.ok.injEq, forall_eq',
            Effect.Tells, Order.attempted_status, Order.retried_status]
          by_cases hd : o.status = .paymentDeclined
          · simp [hd]
          · by_cases hpp : o.status = .paymentPending
            · simp [hpp]
            · simpa [hs, hd, hpp] using Ne.symm hpp
        · refine iff_of_true (fun b hb => ?_) (by simp)
          simp only [payment, hp, if_neg hs, hq, charged] at hb ⊢
          exact declination_tells ⟨rfl, rfl⟩ hb
  · simp [payment, hp, Effect.Tells]

/-- In every state a run of calls leads to, and for every outcome of the gateway and the issuer, a
payment reports the stored order's status, and success just if that is CONFIRMED, unless it finds
its key paid or times out in the wrong status. -/
theorem payment_truthful_iff {w₀ : World} (h₀ : w₀.Initial) {steps : List Step}
    (h : Run w₀ steps w) (env : PaymentEnv) (command : ProcessPaymentCommand) :
    command.Truthful env w
      ↔ ∀ o, w.orders.get command.orderId = some o → ¬ command.Misreports env o := by
  rcases ho : w.orders.get command.orderId with _ | o
  · refine iff_of_true (fun result w' hrun => ?_) (by simp)
    obtain ⟨res, hres, heq⟩ := run_map_inv hrun
    obtain ⟨rfl, -⟩ : .error (.error ("Order not found: " ++ command.orderId)) = res ∧ w = w' := by
      simpa [processPayment, Sync.bind_apply, ho, orNotFound] using hres
    simp [Except.map] at heq
  obtain ⟨r, hr⟩ := h.linked (linked_of_initial h₀) _ o ho
  have hrun := run_map _ Reply.payment (processPayment_run env ho hr)
  have hget : (w.apply (payment env command o r)).orders.get command.orderId
      = some (payment env command o r).order := by
    rw [← w.orders.get_key ho, ← (payment_frame env command o r).id]
    exact Repository.get_save_self _ _
  simp only [Option.some.injEq, forall_eq']
  rw [← payment_tells_iff (r := r)]
  constructor
  · intro htrue b hb
    rw [hb] at hrun
    obtain ⟨o', ho', htells⟩ := htrue b _ hrun
    rw [hget] at ho'
    obtain rfl := Option.some.inj ho'
    exact htells
  · intro htells b w' hb
    rw [Call.run, Call.program, hrun, Option.some.injEq, Prod.mk.injEq] at hb
    obtain ⟨hb, rfl⟩ := hb
    rcases hres : (payment env command o r).result with e | b' <;> rw [hres] at hb
    · simp [Except.map] at hb
    · simp only [Except.map, Except.ok.injEq, Reply.payment.injEq] at hb
      subst hb
      exact ⟨_, hget, htells b' hres⟩

/-- The order is paid, no ticket is issued, and the payment is refunded. -/
def refundedUnissued : List Call :=
  [checkoutAt 1 orderA,
    .processPayment ⟨"payment", .ok ⟨.success, some "t1", none⟩, .error (.external (some "down")), 2, 2,
      2, 2, refundAt 2⟩ ⟨"a", "card", "k1", none⟩]

theorem refundedUnissued_isSome : (runCalls [] heldWorld refundedUnissued).isSome := by decide

/-- The same payment again, at time 3. -/
def repeatedPayment : PaymentEnv :=
  ⟨"payment", .ok ⟨.success, some "t2", none⟩, .ok (), 3, 3, 3, 3, refundAt 3⟩

def repeatedCommand : ProcessPaymentCommand := ⟨"a", "card", "k1", none⟩

/-- Under another key, the order is charged, and the payment tells the truth. -/
theorem payment_truthful_otherKey :
    ∃ steps w, Run heldWorld steps w
      ∧ ({ repeatedCommand with idempotencyKey := "k2" }).Truthful repeatedPayment w := by
  obtain ⟨hrun, -⟩ := run_runCalls refundedUnissued_isSome
  refine ⟨_, _, hrun, (payment_truthful_iff heldWorld_initial hrun _ _).2 fun o ho hmis => ?_⟩
  have hkeys : ((((runCalls [] heldWorld refundedUnissued).get refundedUnissued_isSome).2.orders.get
      "a").map fun o => o.paidAttempt "k2") = some none := by decide
  obtain ⟨o', ho', hkeys⟩ := Option.map_eq_some_iff.1 hkeys
  obtain rfl := Option.some.inj (ho'.symm.trans ho)
  rcases hmis with ⟨-, hpaid | ⟨⟨result, hresult, htimeout⟩, -⟩⟩
  · exact hpaid hkeys
  · obtain rfl := Except.ok.inj hresult
    simp at htimeout

/-- The order is CANCELLED_REFUNDED, and the payment is answered with success. -/
theorem refunded_payment_succeeds :
    heldWorld.Initial ∧ ∃ steps w, Run heldWorld steps w
      ∧ ¬ repeatedCommand.Truthful repeatedPayment w := by
  obtain ⟨hrun, -⟩ := run_runCalls refundedUnissued_isSome
  refine ⟨heldWorld_initial, _, _, hrun, fun htrue => ?_⟩
  obtain ⟨o, ho, -, hsuccess⟩ := htrue ⟨true, .cancelledRefunded, some "t1", false, false, true,
    some (.text "Payment already successfully processed for this idempotency key")⟩ _ rfl
  have hstatus : ((((runCalls [] heldWorld refundedUnissued).get
      refundedUnissued_isSome).2.orders.get "a").map (·.status)) = some .cancelledRefunded := by decide
  obtain ⟨o', ho', hstatus⟩ := Option.map_eq_some_iff.1 hstatus
  obtain rfl := Option.some.inj (ho'.symm.trans ho)
  simp [hstatus] at hsuccess

/-! ## Calls that throw -/

/-- If the call throws, the orders, the reservations and the events seen are as they were. -/
def Call.ThrowsCleanly (c : Call) (w : World) : Prop :=
  ∀ e w', c.run w = some (.error e, w') → w'.orders = w.orders ∧ w'.reservations = w.reservations
    ∧ w'.processedWebhookEvents = w.processedWebhookEvents

/-- The callback changes the order and not the reservation: a SUCCESS in time confirms the order
although the reservation cannot be confirmed, or a decline meets a reservation that is not
PAYMENT_PENDING and has not run out. -/
def PaymentWebhookPayload.StopsMidway (payload : PaymentWebhookPayload) (env : WebhookEnv)
    (o : Order) (r : Reservation) : Prop :=
  payload.status = .success ∧ ¬ isExpired o r env.now ∧ o.Confirmable ∧ ¬ r.CanConfirm env.checkAt
    ∨ payload.status ≠ .success ∧ o.status = .paymentPending ∧ env.now ≤ r.expiresAt
      ∧ r.status ≠ .paymentPending

theorem checkout_throwsCleanly (env : CheckoutEnv) (command : InitiateCheckoutCommand) (w : World) :
    (Call.initiateCheckout env command).ThrowsCleanly w := by
  intro e w' hrun
  obtain ⟨res, hres, heq⟩ := run_map_inv hrun
  rcases initiateCheckout_cases hres with ⟨rfl, -⟩ | ⟨r, -, -, -, -, rfl, -⟩
  · exact ⟨rfl, rfl, rfl⟩
  · simp [Except.map] at heq

/-- A decline that throws has changed the order if it gets past its first guard. -/
theorem declination_throws_iff {α : Type} {now : Time} {a : α} :
    (∀ e, (declination o r now a).result = .error e → (declination o r now a).order = o
        ∧ (declination o r now a).reservation = r)
      ↔ ¬ (o.status = .paymentPending ∧ now ≤ r.expiresAt ∧ r.status ≠ .paymentPending) := by
  unfold declination Order.markPaymentDeclined Reservation.revertPaymentDecline
  by_cases ho : o.status = .paymentPending
  · by_cases hn : now ≤ r.expiresAt
    · by_cases hr : r.status = .paymentPending
      · simp [ho, hn, hr]
      · refine iff_of_false (fun hsame => ?_) (not_not.2 ⟨ho, hn, hr⟩)
        simp only [ho, ne_eq, not_true_eq_false, if_false, hn, if_true, hr, not_false_eq_true,
          Except.error.injEq, forall_eq'] at hsame
        have hstatus := congrArg Order.status hsame.1
        simp [ho] at hstatus
    · simp [ho, hn]
  · simp [ho]

/-- A callback that throws has left the order and the reservation alone unless it stops midway. -/
theorem callback_throws_iff {env : WebhookEnv} {payload : PaymentWebhookPayload}
    (hs : o.status ≠ .confirmed) :
    (∀ e, (callback env payload o r).result = .error e → (callback env payload o r).order = o
      ∧ (callback env payload o r).reservation = r) ↔ ¬ payload.StopsMidway env o r := by
  unfold PaymentWebhookPayload.StopsMidway
  by_cases hp : payload.status = .success
  · obtain ⟨-, ⟨hp', -⟩ | ⟨-, he, -, -, b, hok⟩ | ⟨-, he, hc, ho, hr, -⟩ |
      ⟨-, he, hc, ho, ⟨hcan, -, b, hok⟩ | ⟨hcan, -, e, herr⟩⟩⟩ := callback_cases env payload r hs
    · exact absurd hp hp'
    · simp [hok, he, hp]
    · simp [ho, hr, hc, hp]
    · simp [hok, hcan, hp]
    · refine iff_of_false (fun hsame => ?_) (not_not.2 (.inl ⟨hp, he, hc, hcan⟩))
      have hstatus := congrArg Order.status (hsame e herr).1
      rw [ho] at hstatus
      exact hs hstatus.symm
  · unfold callback
    rw [if_neg hp, declination_throws_iff]
    simp [hp]

/-- A callback new to its instance, about an order that is not CONFIRMED. -/
theorem webhook_throwsCleanly_iff {env : WebhookEnv} {self : ℕ} {payload : PaymentWebhookPayload}
    (hnew : payload.eventId ∉ w.processedWebhookEvents self)
    (ho : w.orders.get payload.orderId = some o)
    (hr : w.reservations.get o.reservationId = some r) (hc : o.status ≠ .confirmed) :
    (Call.handlePaymentWebhook env self payload).ThrowsCleanly w
      ↔ ¬ payload.StopsMidway env o r := by
  have hrun := run_map _ Reply.webhook (handlePaymentWebhook_run env hnew ho hr hc)
  have hframe := callback_frame env payload r hc
  have hid := w.orders.get_key ho
  have hrid := w.reservations.get_key hr
  rw [← callback_throws_iff hc]
  constructor
  · intro hclean e he
    rw [he] at hrun
    obtain ⟨horders, hreservations, -⟩ := hclean e _ hrun
    have ho' := Repository.get_save_self w.orders (callback env payload o r).order
    have hr' := Repository.get_save_self w.reservations (callback env payload o r).reservation
    change w.orders.save _ = _ at horders
    change w.reservations.save _ = _ at hreservations
    rw [horders, hframe.id, hid, ho] at ho'
    rw [hreservations, hframe.moves.id, hrid, hr] at hr'
    exact ⟨(Option.some.inj ho').symm, (Option.some.inj hr').symm⟩
  · intro hsame e w' hrun'
    rw [Call.run, Call.program, hrun, Option.some.injEq, Prod.mk.injEq] at hrun'
    obtain ⟨he, rfl⟩ := hrun'
    rcases hres : (callback env payload o r).result with e' | b <;> rw [hres] at he
    · obtain ⟨hso, hsr⟩ := hsame e' hres
      refine ⟨?_, ?_, rfl⟩
      · change w.orders.save _ = _
        rw [hso, Repository.save_get (hid ▸ ho)]
      · change w.reservations.save _ = _
        rw [hsr, Repository.save_get (hrid ▸ hr)]
    · simp [Except.map] at he

/-- In every state a run of calls leads to: a checkout that throws has changed nothing, and so has a
callback unless its event is new to its instance and it stops midway. -/
theorem throws_cleanly_iff {w₀ : World} (h₀ : w₀.Initial) {steps : List Step}
    (h : Run w₀ steps w) :
    (∀ env command, (Call.initiateCheckout env command).ThrowsCleanly w)
      ∧ ∀ env self payload, (Call.handlePaymentWebhook env self payload).ThrowsCleanly w
        ↔ ∀ o r, w.orders.get payload.orderId = some o →
          w.reservations.get o.reservationId = some r →
          payload.eventId ∉ w.processedWebhookEvents self → ¬ payload.StopsMidway env o r := by
  refine ⟨fun env command => checkout_throwsCleanly env command w, fun env self payload => ?_⟩
  rcases ho : w.orders.get payload.orderId with _ | o
  · refine iff_of_true (fun e w' hrun => ?_) (by simp)
    obtain ⟨reply, hmissing⟩ := Call.run_missing (c := .handlePaymentWebhook env self payload) rfl ho
    rw [hmissing, Option.some.injEq, Prod.mk.injEq] at hrun
    obtain ⟨-, rfl⟩ := hrun
    exact ⟨rfl, rfl, rfl⟩
  obtain ⟨r, hr⟩ := h.linked (linked_of_initial h₀) _ o ho
  by_cases hseen : payload.eventId ∈ w.processedWebhookEvents self
  · refine iff_of_true (fun e w' hrun => ?_) (by simp [hseen])
    obtain ⟨hreply, -⟩ := Call.run_eq_effect hrun rfl ho hr
    simp [Call.effect, webhook, hseen, Effect.map, Except.map] at hreply
  by_cases hc : o.status = .confirmed
  · refine iff_of_true (fun e w' hrun => ?_) ?_
    · obtain ⟨hreply, -⟩ := Call.run_eq_effect hrun rfl ho hr
      simp [Call.effect, webhook, hseen, hc, Effect.map, Except.map] at hreply
    · rintro o' r' ho' - - (⟨-, -, hc', -⟩ | ⟨-, hp, -⟩)
      · obtain rfl := Option.some.inj ho'
        rcases hc' with hc' | hc' | hc' <;> simp [hc] at hc'
      · obtain rfl := Option.some.inj ho'
        simp [hc] at hp
  rw [webhook_throwsCleanly_iff hseen ho hr hc]
  refine ⟨fun hno o' r' ho' hr' _ => ?_, fun hall => hall o r rfl hr hseen⟩
  obtain rfl := Option.some.inj ho'
  obtain rfl := Option.some.inj (hr.symm.trans hr')
  exact hno

/-- A report of success for a CANCELLED order throws, and leaves nothing behind. -/
theorem throws_cleanly_cancelled :
    ∃ steps w e w', Run heldWorld steps w
      ∧ (Call.handlePaymentWebhook atFive 0 paidEvent).run w = some (.error e, w')
      ∧ (Call.handlePaymentWebhook atFive 0 paidEvent).ThrowsCleanly w := by
  obtain ⟨hrun, -⟩ := run_runCalls cancelledOrder_isSome
  refine ⟨_, _, .invalidStateTransition "CANCELLED" "CONFIRMED", _, hrun, rfl,
    ((throws_cleanly_iff heldWorld_initial hrun).2 _ _ _).2 ?_⟩
  have hcancelled : (((runCalls [] heldWorld cancelledOrder).get
      cancelledOrder_isSome).2.orders.get "a").map (·.status) = some .cancelled := by decide
  rintro o r ho - - (⟨-, -, hopen, -⟩ | ⟨hp, -⟩)
  · obtain ⟨o', ho', hstatus⟩ := Option.map_eq_some_iff.1 hcancelled
    obtain rfl := Option.some.inj (ho'.symm.trans ho)
    simp [Order.Confirmable, hstatus] at hopen
  · exact hp rfl

/-- A declined payment puts the reservation back to PENDING; the next one times out. -/
def timedOutAgain : List Call :=
  [checkoutAt 1 orderA, payAt 2 "a" "k1" ⟨.declined, none, none⟩,
    payAt 3 "a" "k2" ⟨.timeout, none, none⟩]

theorem timedOutAgain_isSome : (runCalls [] heldWorld timedOutAgain).isSome := by decide

def declinedPayload : PaymentWebhookPayload := ⟨"evt", "a", "t1", .declined⟩

/-- A report of a decline throws, and the order is PAYMENT_DECLINED. -/
theorem declined_callback_leaves_trace :
    heldWorld.Initial ∧ ∃ steps w, Run heldWorld steps w
      ∧ ¬ (Call.handlePaymentWebhook atFive 0 declinedPayload).ThrowsCleanly w := by
  obtain ⟨hrun, -⟩ := run_runCalls timedOutAgain_isSome
  refine ⟨heldWorld_initial, _, _, hrun, fun hclean => ?_⟩
  obtain ⟨horders, -⟩ := hclean (.invalidStateTransition "PENDING" "PENDING") _ rfl
  have hstatus : (((runCalls [] heldWorld timedOutAgain).get
      timedOutAgain_isSome).2.orders.get "a").map (·.status) = some .paymentPending := by decide
  rw [← horders] at hstatus
  exact absurd hstatus (by decide)

end LaunchPad
