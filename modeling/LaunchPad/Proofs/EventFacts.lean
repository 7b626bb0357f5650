import LaunchPad.OrderEvents
import LaunchPad.Proofs.Tickets

/-!
# Which orders a confirmation event is made of

`createOrderConfirmedEvent` asks for `confirmedAt` and a transaction id, and `Order.confirm` sets
both. No later transition clears them: an order that a compensation took out of CONFIRMED has an
event, and after a late payment one with a transaction that never confirmed it. `confirmation_cases`
tells the three ways a call can leave an order; from it follows which runs keep the events to the
CONFIRMED orders (`confirmations_are_facts_iff`).
-/

namespace LaunchPad

open Interleave Rows

/-- The payload says of the order what the order says. -/
structure OrderConfirmedPayloadV1.Reports (p : OrderConfirmedPayloadV1) (o : Order) : Prop where
  orderId : p.orderId = o.id
  userId : p.userId = o.userId
  reservationId : p.reservationId = o.reservationId
  ticketTypeId : p.ticketTypeId = o.ticketTypeId
  quantity : p.quantity = o.quantity
  amount : p.totalAmountCents = o.totalAmount.amountCents
  currency : p.currency = o.totalAmount.currency
  confirmedAt : some p.confirmedAt = o.confirmedAt.map toISOString
  providerTransactionId : some p.providerTransactionId = o.providerTransactionId

/-- There is an event of the order just if it is CONFIRMED, and then it reports the order and can be
serialized. -/
def Order.ConfirmationIsFact (o : Order) : Prop :=
  ∀ eventId options,
    ((∃ event, createOrderConfirmedEvent o eventId options = .ok event) ↔ o.status = .confirmed)
      ∧ ∀ event, createOrderConfirmedEvent o eventId options = .ok event →
        (∃ data, event.rest.data = some data ∧ data.base.Reports o)
          ∧ ∀ stringify, EventSerializer.serialize stringify event = .ok (stringify event)

def World.ConfirmationsAreFacts (w : World) : Prop :=
  ∀ id o, w.orders.get id = some o → o.ConfirmationIsFact

/-- The transactions that a charge or a callback reports have ids. -/
def Call.NamesTransactions : Call → Prop
  | .processPayment env _ => ∀ result, env.charge = .ok result → result.status = .success →
    (truthy result.transactionId).isSome
  | .handlePaymentWebhook _ _ payload => payload.providerTransactionId ≠ ""
  | _ => True

/-- The call takes an order out of CONFIRMED, or confirms it and takes that back: a reservation that
is not CONFIRMED is released, and the refund is answered. -/
def Call.TakesBack (o : Order) (r : Reservation) : Call → Prop
  | .processPayment env command =>
    o.paidAttempt command.idempotencyKey = none ∧ o.Confirmable ∧ env.issue = .ok ()
      ∧ (∃ result, env.charge = .ok result ∧ result.status = .success)
      ∧ ¬ r.CanConfirm env.checkAt ∧ r.status ≠ .confirmed
      ∧ ∃ result, env.compensation.refund = .ok result
  | .compensateOrder env _ _ _ =>
    o.status = .confirmed ∧ r.status ≠ .confirmed ∧ ∃ result, env.refund = .ok result
  | _ => False

/-- A call does so to a stored order. -/
def Call.TakesBackIn (c : Call) (w : World) : Prop :=
  ∃ id o r, c.orderId = some id ∧ w.orders.get id = some o
    ∧ w.reservations.get o.reservationId = some r ∧ c.TakesBack o r

/-! ## Events -/

section Events

variable {o : Order} {eventId : Uuid} {options : CreateOrderConfirmedEventOptions}

theorem exists_event_iff :
    (∃ event, createOrderConfirmedEvent o eventId options = .ok event)
      ↔ o.confirmedAt.isSome ∧ (truthy o.providerTransactionId).isSome := by
  unfold createOrderConfirmedEvent
  rcases o.confirmedAt with _ | t <;> rcases truthy o.providerTransactionId with _ | txn <;> simp

theorem toISOString_ne_empty (t : Time) : toISOString t ≠ "" := by
  intro h
  have hlen := congrArg String.length h
  unfold toISOString at hlen
  rw [String.length_append] at hlen
  simp at hlen

theorem nonblank_ne_empty {s : String} (h : ¬ Blank s) : s ≠ "" := by
  rintro rfl
  exact h (by simp [Blank])

/-- An event reports its order, and can be serialized. -/
theorem event_reports {event : EventEnvelope OrderConfirmedPayload}
    (h : createOrderConfirmedEvent o eventId options = .ok event) :
    (∃ data, event.rest.data = some data ∧ data.base.Reports o)
      ∧ ∀ stringify, EventSerializer.serialize stringify event = .ok (stringify event) := by
  unfold createOrderConfirmedEvent at h
  rcases hat : o.confirmedAt with _ | t <;>
    rcases htxn : truthy o.providerTransactionId with _ | txn <;> rw [hat, htxn] at h <;>
    simp only [reduceCtorEq, Except.ok.injEq] at h
  obtain rfl := h
  constructor
  · refine ⟨_, rfl, ?_⟩
    rcases options.version with _ | _ | _ <;>
      exact ⟨rfl, rfl, rfl, rfl, rfl, rfl, rfl, by rw [hat]; rfl, (truthy_eq_some htxn).symm⟩
  · intro stringify
    have hid : eventId.val ≠ "" := nonblank_ne_empty eventId.nonblank
    have hoid : o.id ≠ "" := nonblank_ne_empty o.id_nonblank
    have hversion : 1 ≤ (options.version.getD .one).number := by
      rcases options.version with _ | _ | _ <;> decide
    have hno : ¬ ((options.version.getD .one).number = 0 ∨ (options.version.getD .one).number < 1) := by
      omega
    simp [EventSerializer.serialize, hid, hoid, hno, toISOString_ne_empty,
      ORDER_CONFIRMED_EVENT_TYPE]

end Events

/-! ## What a call does to the confirmation -/

/-- The order's confirmation is on record: a CONFIRMED order has its time, and a time comes with a
transaction. -/
structure Order.OnRecord (o : Order) : Prop where
  confirmed : o.status = .confirmed → o.confirmedAt.isSome
  named : o.confirmedAt.isSome → (truthy o.providerTransactionId).isSome

/-- Neither the status CONFIRMED nor the record of it has changed. -/
structure Order.SameConfirmation (o o' : Order) : Prop where
  status : o'.status = .confirmed ↔ o.status = .confirmed
  confirmedAt : o'.confirmedAt = o.confirmedAt
  named : (truthy o.providerTransactionId).isSome → (truthy o'.providerTransactionId).isSome

/-- The order has been confirmed, and has the status CONFIRMED if `stays`. -/
structure Order.HasConfirmation (o : Order) (stays : Prop) : Prop where
  status : o.status = .confirmed ↔ stays
  confirmedAt : o.confirmedAt.isSome
  named : (truthy o.providerTransactionId).isSome

section Calls

variable {w : World} {o o' : Order} {r : Reservation} {c : Call}

theorem Order.SameConfirmation.refl (o : Order) : o.SameConfirmation o := ⟨Iff.rfl, rfl, fun h => h⟩

theorem Order.SameConfirmation.trans {o₁ o₂ o₃ : Order} (h : o₁.SameConfirmation o₂)
    (h' : o₂.SameConfirmation o₃) : o₁.SameConfirmation o₃ :=
  ⟨h'.status.trans h.status, h'.confirmedAt.trans h.confirmedAt, h'.named ∘ h.named⟩

theorem Order.retried_sameConfirmation (hs : o.status ≠ .confirmed) :
    o.SameConfirmation o.retried := by
  unfold Order.retried
  split_ifs
  · exact ⟨iff_of_false (by simp) hs, rfl, fun h => h⟩
  · exact .refl o

theorem Order.attempted_sameConfirmation (hs : o.status ≠ .confirmed) (env : PaymentEnv)
    (command : ProcessPaymentCommand) (result : ChargeResult) :
    o.SameConfirmation (o.attempted env command result) := by
  refine (o.retried_sameConfirmation hs).trans ?_
  rcases result with ⟨_ | _ | _ | _, t, m⟩ <;> exact ⟨Iff.rfl, rfl, fun h => h⟩

/-- No later transition clears what `confirm` has set. -/
theorem compensation_record (env : CompensationEnv) (x : Option String)
    (reason : CompensationReason) (o : Order) (r : Reservation) :
    (compensation env x reason o r).order.confirmedAt = o.confirmedAt
      ∧ (compensation env x reason o r).order.providerTransactionId = o.providerTransactionId := by
  have hsettled : ∀ res : RefundResult, (o.settled env res).confirmedAt = o.confirmedAt
      ∧ (o.settled env res).providerTransactionId = o.providerTransactionId := by
    intro res
    unfold Order.settled
    split <;> exact ⟨rfl, rfl⟩
  rcases compensation_cases env x reason o r with ⟨ho, -⟩ | ⟨r', -, -, -, h⟩
  · rw [ho]
    exact ⟨rfl, rfl⟩
  rcases h with ⟨-, -, ⟨-, ho⟩ | ⟨-, ho⟩⟩ | ⟨t, -, ⟨-, ho, -⟩ | ⟨res, -, ho, -⟩⟩ <;> rw [ho]
  · exact ⟨rfl, rfl⟩
  · exact ⟨rfl, rfl⟩
  · exact ⟨rfl, rfl⟩
  · exact hsettled res

/-- A compensation confirms nothing. -/
theorem compensation_unconfirmed (env : CompensationEnv) (x : Option String)
    (reason : CompensationReason) (r : Reservation) (hs : o.status ≠ .confirmed) :
    o.SameConfirmation (compensation env x reason o r).order := by
  obtain ⟨hat, htxn⟩ := compensation_record env x reason o r
  refine ⟨iff_of_false ?_ hs, hat, by rw [htxn]; exact id⟩
  rw [compensation_confirmed_iff]
  exact fun h => hs h.1

/-- A CONFIRMED order stays so where the compensation throws. -/
theorem compensation_hasConfirmation (env : CompensationEnv) (x : Option String)
    (reason : CompensationReason) (r : Reservation) (h : o.HasConfirmation True) :
    (compensation env x reason o r).order.HasConfirmation
      (¬ (r.status ≠ .confirmed ∧ ∃ result, env.refund = .ok result)) := by
  obtain ⟨hat, htxn⟩ := compensation_record env x reason o r
  have hs := h.status.2 trivial
  have htarget : o.refundTarget x ≠ none := by
    intro hnone
    rw [Order.refundTarget, Option.or_eq_none_iff, Option.or_eq_none_iff] at hnone
    have hnamed := h.named
    rw [hnone.2.1] at hnamed
    cases hnamed
  refine ⟨?_, by rw [hat]; exact h.confirmedAt, by rw [htxn]; exact h.named⟩
  rw [compensation_confirmed_iff]
  rcases env.refund with e | res <;> simp [hs, htarget]

/-! ### Payments and callbacks -/

/-- Once the tickets are issued the fulfilment confirms an order that can be, and takes that back
where the reservation can not be. -/
theorem fulfilment_confirmation {env : PaymentEnv} {result : ChargeResult}
    (hs : o.status ≠ .confirmed) (hnamed : (truthy result.transactionId).isSome) :
    o.SameConfirmation (fulfilment env result o r).order
        ∧ ¬ (env.issue = .ok () ∧ o.Confirmable)
      ∨ env.issue = .ok () ∧ o.Confirmable
        ∧ (fulfilment env result o r).order.HasConfirmation (r.CanConfirm env.checkAt
          ∨ ¬ (r.status ≠ .confirmed ∧ ∃ res, env.compensation.refund = .ok res)) := by
  rcases fulfilment_cases env result r hs with ⟨hiss, hcon, hcan, ho, -⟩ |
    ⟨o₁, cause, pre, -, ⟨rfl, hno⟩ | ⟨rfl, hiss, hcon, hcan⟩, ho, -⟩
  · simp only [ho]
    exact .inr ⟨hiss, hcon, iff_of_true rfl (.inl hcan), rfl, hnamed⟩
  · simp only [ho]
    exact .inl ⟨compensation_unconfirmed _ _ _ r hs, hno⟩
  · have h := compensation_hasConfirmation env.compensation result.transactionId
      (.fulfillment cause) r (o := o.confirmedBy result.transactionId env.confirmAt)
      ⟨iff_of_true rfl trivial, rfl, hnamed⟩
    simp only [ho, or_iff_right hcan]
    exact .inr ⟨hiss, hcon, h⟩

theorem payment_confirmation {env : PaymentEnv} {command : ProcessPaymentCommand}
    (hA : (Call.processPayment env command).NamesTransactions) :
    o.SameConfirmation (payment env command o r).order
        ∧ ¬ (Call.processPayment env command).TakesBack o r
      ∨ (payment env command o r).order.HasConfirmation
        (¬ (Call.processPayment env command).TakesBack o r) := by
  rcases payment_cases env command o r with ⟨ho, -, -, hwhy⟩ | ⟨hpaid, hs, ⟨⟨e, he⟩, ho, -⟩ |
    ⟨result, hch, ho, -⟩⟩
  · rw [ho]
    refine .inl ⟨.refl o, ?_⟩
    rintro ⟨hpaid, hcon, -⟩
    rcases hwhy with h | h
    · exact h hpaid
    · simp [Order.Confirmable, h] at hcon
  · rw [ho]
    refine .inl ⟨o.retried_sameConfirmation hs, ?_⟩
    rintro ⟨-, -, -, ⟨result, hch, -⟩, -⟩
    simp [he] at hch
  have hsame := o.attempted_sameConfirmation hs env command result
  have hs' := retried_ne_confirmed hs env command result
  by_cases hres : result.status = .success
  swap
  · refine .inl ⟨?_, ?_⟩
    · rw [ho]
      obtain ⟨-, -, -, ho' | ⟨-, ho'⟩⟩ := charged_unpaid env command o r hres
      · rwa [ho']
      · rw [ho']
        exact hsame.trans ⟨iff_of_false (by simp) hs', rfl, id⟩
    · rintro ⟨-, -, -, ⟨result', hch', hres'⟩, -⟩
      obtain rfl : result = result' := by simpa [hch] using hch'
      exact hres hres'
  rw [ho, charged, hres]
  rcases fulfilment_confirmation hs' (hA result hch hres) with ⟨hf, hno⟩ | ⟨hiss, hcon, hf⟩
  · refine .inl ⟨hsame.trans hf, ?_⟩
    rintro ⟨-, hcon, hiss, -⟩
    exact hno ⟨hiss, Order.confirmable_attempted.2 hcon⟩
  · have htakes : (Call.processPayment env command).TakesBack o r ↔ ¬ r.CanConfirm env.checkAt
        ∧ r.status ≠ .confirmed ∧ ∃ res, env.compensation.refund = .ok res := by
      constructor
      · exact fun h => h.2.2.2.2
      · exact fun h => ⟨hpaid, Order.confirmable_attempted.1 hcon, hiss, ⟨result, hch, hres⟩, h⟩
    rw [htakes, not_and_or, not_not]
    exact .inr hf

theorem webhook_confirmation {env : WebhookEnv} {self : ℕ} {payload : PaymentWebhookPayload}
    (hA : (Call.handlePaymentWebhook env self payload).NamesTransactions) (seen : Finset String) :
    o.SameConfirmation (webhook env seen payload o r).order
      ∨ (webhook env seen payload o r).order.HasConfirmation True := by
  have hnamed : (truthy (some payload.providerTransactionId)).isSome := by
    rw [truthy_some hA]
    rfl
  unfold webhook
  split_ifs with hseen hs
  · exact .inl (.refl o)
  · exact .inl (.refl o)
  obtain ⟨-, ⟨-, -, -, ho⟩ | ⟨-, -, ho, -⟩ | ⟨-, -, -, ho, -⟩ | ⟨-, -, -, ho, -⟩⟩ :=
    callback_cases env payload r hs
  · left
    rcases ho with ho | ⟨-, ho⟩ <;> rw [ho]
    · exact .refl o
    · exact ⟨iff_of_false (by simp) hs, rfl, id⟩
  · rw [ho]
    exact .inl ⟨iff_of_false (by simp [Order.markRefundRequired]) hs, rfl, fun _ => hnamed⟩
  · rw [ho]
    exact .inl (.refl o)
  · rw [ho]
    exact .inr ⟨iff_of_true rfl trivial, rfl, hnamed⟩

/-! ### Any call -/

/-- A call leaves the confirmation as it is, or the order has one, and is CONFIRMED unless the call
takes it back. -/
theorem Call.confirmation_cases (hA : c.NamesTransactions) (ho : o.OnRecord) (w : World) :
    o.SameConfirmation (c.effect w o r).order ∧ ¬ c.TakesBack o r
      ∨ (c.effect w o r).order.HasConfirmation (¬ c.TakesBack o r) := by
  cases c with
  | initiateCheckout => exact .inl ⟨.refl o, id⟩
  | expire => exact .inl ⟨.refl o, id⟩
  | processPayment env command => exact payment_confirmation hA
  | handlePaymentWebhook env self payload =>
    rcases webhook_confirmation hA (w.processedWebhookEvents self) (o := o) (r := r) with h | h
    · exact .inl ⟨h, id⟩
    · exact .inr ⟨h.status.trans (by simp [TakesBack]), h.confirmedAt, h.named⟩
  | compensateOrder env orderId x reason =>
    by_cases hs : o.status = .confirmed
    · have hat := ho.confirmed hs
      have h := compensation_hasConfirmation env x reason r (o := o)
        ⟨iff_of_true hs trivial, hat, ho.named hat⟩
      exact .inr ⟨h.status.trans (by simp [TakesBack, hs]), h.confirmedAt, h.named⟩
    · exact .inl ⟨compensation_unconfirmed env x reason r hs, fun h => hs h.1⟩
  | retryCompensation env orderId =>
    refine .inl ⟨?_, id⟩
    simp only [effect]
    split_ifs with hs
    · exact .refl o
    · exact compensation_unconfirmed env none .retry r fun h => by simp [h] at hs

end Calls

/-! ## Runs -/

section Runs

variable {w w' : World} {c : Call}

def World.OnRecord (w : World) : Prop := ∀ id o, w.orders.get id = some o → o.OnRecord

/-- Of orders on record, the events are facts where every `confirmedAt` is a CONFIRMED order's. -/
theorem Order.OnRecord.isFact_iff {o : Order} (h : o.OnRecord) :
    o.ConfirmationIsFact ↔ (o.confirmedAt.isSome → o.status = .confirmed) := by
  have hevent : ∀ eventId options,
      (∃ event, createOrderConfirmedEvent o eventId options = .ok event) ↔ o.confirmedAt.isSome :=
    fun eventId options => exists_event_iff.trans ⟨fun h => h.1, fun hat => ⟨hat, h.named hat⟩⟩
  constructor
  · intro hfact hat
    have hid : ¬ Blank "event" := by decide
    exact ((hfact ⟨"event", hid⟩ ⟨none, none, none, none, none⟩).1).1 ((hevent _ _).2 hat)
  · intro hat eventId options
    exact ⟨(hevent eventId options).trans ⟨hat, h.confirmed⟩, fun _ => event_reports⟩

theorem Order.SameConfirmation.onRecord {o o' : Order} (h : o.SameConfirmation o')
    (ho : o.OnRecord) : o'.OnRecord := by
  refine ⟨fun hs => ?_, fun hat => h.named (ho.named ?_)⟩
  · rw [h.confirmedAt]
    exact ho.confirmed (h.status.1 hs)
  · rwa [← h.confirmedAt]

theorem Order.onRecord_ofReservation (uid : Uuid) (r : Reservation) (amount : Money) :
    (Order.ofReservation uid r amount).OnRecord :=
  ⟨fun hs => by simp [Order.ofReservation] at hs, fun hat => by simp [Order.ofReservation] at hat⟩

/-- Every call that names its transactions leaves the orders on record. -/
theorem Call.onRecord (hl : w.Linked) (hA : c.NamesTransactions) {reply : Except WorkflowError Reply}
    (h : c.run w = some (reply, w')) (hw : w.OnRecord) : w'.OnRecord := by
  intro id o' ho'
  rcases Call.order_cases hl h ho' with ho | ⟨o, r, -, ho, -, -, rfl⟩ | ⟨uid, r, amount, -, -, rfl⟩
  · exact hw id o' ho
  · rcases Call.confirmation_cases hA (hw id o ho) w (r := r) with ⟨hsame, -⟩ | hhas
    · exact hsame.onRecord (hw id o ho)
    · exact ⟨fun _ => hhas.confirmedAt, fun _ => hhas.named⟩
  · exact Order.onRecord_ofReservation uid r amount

/-- A call that takes no order back leaves events that are facts. -/
theorem facts_step (hl : w.Linked) (hw : w.OnRecord) (hA : c.NamesTransactions)
    {reply : Except WorkflowError Reply} (h : c.run w = some (reply, w'))
    (hP : w.ConfirmationsAreFacts) (hok : ¬ c.TakesBackIn w) : w'.ConfirmationsAreFacts := by
  intro id o' ho'
  refine (Call.onRecord hl hA h hw id o' ho').isFact_iff.2 fun hat => ?_
  rcases Call.order_cases hl h ho' with ho | ⟨o, r, hid, ho, hr, -, rfl⟩ |
    ⟨uid, r, amount, -, -, rfl⟩
  · exact (hw id o' ho).isFact_iff.1 (hP id o' ho) hat
  · rcases Call.confirmation_cases hA (hw id o ho) w (r := r) with ⟨hsame, -⟩ | hhas
    · rw [hsame.confirmedAt] at hat
      exact hsame.status.2 ((hw id o ho).isFact_iff.1 (hP id o ho) hat)
    · exact hhas.status.2 fun hback => hok ⟨id, o, r, hid, ho, hr, hback⟩
  · simp [Order.ofReservation] at hat

/-- A call that takes an order back leaves it with an event. -/
theorem ghost_step (hw : w.OnRecord) (hA : c.NamesTransactions)
    {reply : Except WorkflowError Reply} (h : c.run w = some (reply, w'))
    (hback : c.TakesBackIn w) : ¬ w'.ConfirmationsAreFacts := by
  obtain ⟨id, o, r, hid, ho, hr, hback⟩ := hback
  obtain ⟨-, hw'⟩ := Call.run_eq_effect h hid ho hr
  have hoid : o.id = id := w.orders.get_key ho
  rcases Call.confirmation_cases hA (hw id o ho) w (r := r) with ⟨-, hno⟩ | hhas
  · exact absurd hback hno
  intro hP
  have hfact := hP id (c.effect w o r).order
    (by rw [hw'.orders, Repository.get_save, (c.effect_frame w o r).id, hoid, if_pos rfl])
  have hrecord : (c.effect w o r).order.OnRecord :=
    ⟨fun _ => hhas.confirmedAt, fun _ => hhas.named⟩
  exact hhas.status.1 (hrecord.isFact_iff.1 hfact hhas.confirmedAt) hback

/-- In a run whose transactions have ids, after every call there is a confirmation event of exactly
the CONFIRMED orders, which reports its order and can be serialized, if and only if no call takes an
order out of CONFIRMED, or confirms one and takes that back. -/
theorem confirmations_are_facts_iff {w₀ : World} (h₀ : w₀.Initial) {steps : List Step}
    (h : Run w₀ steps w) (hA : ∀ s ∈ steps, s.call.NamesTransactions) :
    ((∀ s ∈ steps, s.before.ConfirmationsAreFacts) ∧ w.ConfirmationsAreFacts)
      ↔ ∀ s ∈ steps, ¬ s.call.TakesBackIn s.before := by
  have hnone : ∀ id o, w₀.orders.get id ≠ some o := fun id o ho => by simp [h₀.orders] at ho
  exact Run.iff_no_bad (I := fun w => w.Linked ∧ w.OnRecord) (B := Call.TakesBackIn)
    (fun hi hA hc => ⟨Call.linked hi.1 hc, Call.onRecord hi.1 hA hc hi.2⟩)
    (fun hi hA hc hP hok => facts_step hi.1 hi.2 hA hc hP hok)
    (fun hi hA hc _ hback => ghost_step hi.2 hA hc hback)
    ⟨linked_of_initial h₀, fun id o ho => absurd ho (hnone id o)⟩
    (fun id o ho => absurd ho (hnone id o)) h hA

end Runs

/-- A payment after the hold has run out, which is refunded; then another payment of the order is
reported. -/
def paidTooLate : List Call :=
  [checkoutAt 1 orderA, payAt 700000 "a" "k1" ⟨.success, some "t1", none⟩,
    paidAt 700001 "evt" "a" "t2"]

theorem paidTooLate_isSome : (runCalls [] heldWorld paidTooLate).isSome := by decide

theorem paidTooLate_names : ∀ c ∈ paidTooLate, c.NamesTransactions := by
  simp [paidTooLate, checkoutAt, payAt, paidAt, Call.NamesTransactions, truthy]

def confirmedEvent : Uuid := ⟨"event", by decide⟩

/-- The order is REFUND_REQUIRED, and its event says that `t2` confirmed it. -/
theorem paidTooLate_event :
    ((((runCalls [] heldWorld paidTooLate).get paidTooLate_isSome).2.orders.get "a").map fun o =>
      (o.status, (createOrderConfirmedEvent o confirmedEvent ⟨none, none, none, none,
        none⟩).toOption.map fun event => event.rest.data.map fun data =>
          (data.base.confirmedAt, data.base.providerTransactionId)))
      = some (.refundRequired, some (some ("1970-01-01T00:11:40.000Z", "t2"))) := by
  decide +kernel

theorem paidTooLate_ghost : ¬ ((runCalls [] heldWorld paidTooLate).get
    paidTooLate_isSome).2.ConfirmationsAreFacts := by
  intro hP
  obtain ⟨o, ho, he⟩ := Option.map_eq_some_iff.1 paidTooLate_event
  obtain ⟨hstatus, hevent⟩ := Prod.mk.inj he
  rcases hc : createOrderConfirmedEvent o confirmedEvent ⟨none, none, none, none, none⟩ with _ | e
  · simp [hc, Except.toOption] at hevent
  · have hs := ((hP "a" o ho _ _).1).1 ⟨e, hc⟩
    simp [hstatus] at hs

theorem confirmations_are_facts_iff_paidTooLate :
    ∃ steps w, Run heldWorld steps w ∧ ∃ s ∈ steps, s.call.TakesBackIn s.before := by
  obtain ⟨hrun, hcalls⟩ := run_runCalls paidTooLate_isSome
  refine ⟨_, _, hrun, ?_⟩
  by_contra hno
  have hok := (confirmations_are_facts_iff heldWorld_initial hrun fun s hs =>
    paidTooLate_names s.call (hcalls ▸ List.mem_map_of_mem hs)).2 fun s hs hbad =>
      hno ⟨s, hs, hbad⟩
  exact paidTooLate_ghost hok.2

/-- With a clock that never goes back, there is a confirmation event of an order that is
REFUND_REQUIRED, with a transaction that did not confirm it. -/
theorem refunded_order_confirmed :
    heldWorld.Initial ∧ ∃ steps w, Run heldWorld steps w
      ∧ (∀ s ∈ steps, s.call.NamesTransactions)
      ∧ ((steps.map Step.call).flatMap Call.readings).Pairwise (· ≤ ·)
      ∧ (∃ o event data, w.orders.get "a" = some o ∧ o.status = .refundRequired
        ∧ createOrderConfirmedEvent o confirmedEvent ⟨none, none, none, none, none⟩ = .ok event
        ∧ event.rest.data = some data ∧ data.base.providerTransactionId = "t2")
      ∧ ¬ w.ConfirmationsAreFacts := by
  obtain ⟨hrun, hcalls⟩ := run_runCalls paidTooLate_isSome
  refine ⟨heldWorld_initial, _, _, hrun, fun s hs => ?_, ?_, ?_, paidTooLate_ghost⟩
  · exact paidTooLate_names s.call (hcalls ▸ List.mem_map_of_mem hs)
  · rw [hcalls]
    decide
  · obtain ⟨o, ho, he⟩ := Option.map_eq_some_iff.1 paidTooLate_event
    obtain ⟨hstatus, hevent⟩ := Prod.mk.inj he
    rcases hc : createOrderConfirmedEvent o confirmedEvent ⟨none, none, none, none, none⟩ with _ | e
    · simp [hc, Except.toOption] at hevent
    · simp only [hc, Except.toOption, Option.map_some, Option.some.injEq,
        Option.map_eq_some_iff] at hevent
      obtain ⟨data, hdata, hpair⟩ := hevent
      exact ⟨o, e, data, ho, hstatus, hc, hdata, (Prod.mk.inj hpair).2⟩

end LaunchPad
