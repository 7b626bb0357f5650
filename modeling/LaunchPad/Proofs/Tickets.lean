import LaunchPad.Settlement
import LaunchPad.Proofs.Confirmation

/-!
# Tickets and confirmations

The issuer runs in a payment, between the charge and the confirmation of the order. A callback
confirms without it; a confirmation that fails after it leaves tickets without an order; and a
compensation may take back an order that has its tickets. `Call.effect_tickets` says of every call
whether tickets and confirmation stay in step, and `tickets_iff` of every run.
-/

namespace LaunchPad

open Interleave Rows

variable {w w' : World} {o : Order} {r : Reservation} {c : Call}

theorem ticketsIssued_append (l l' : List PortEvent) (id : String) :
    ticketsIssued (l ++ l') id = ticketsIssued l id + ticketsIssued l' id := List.count_append

theorem ticketsIssued_eq_zero {l : List PortEvent} {id : String}
    (h : PortEvent.ticketIssued id ∉ l) : ticketsIssued l id = 0 := List.count_eq_zero.2 h

/-! ## Compensation -/

theorem compensation_tickets (env : CompensationEnv) (x : Option String)
    (reason : CompensationReason) (o : Order) (r : Reservation) (id : String) :
    ticketsIssued (compensation env x reason o r).events id = 0 := by
  refine ticketsIssued_eq_zero ?_
  rcases compensation_cases env x reason o r with ⟨-, -, h, -⟩ | ⟨r', -, -, -, ⟨-, h, -⟩ |
    ⟨t, -, ⟨-, -, h⟩ | ⟨res, -, -, h⟩⟩⟩ <;> simp [h]

/-- When a compensation leaves an order CONFIRMED. -/
theorem compensation_confirmed_iff {env : CompensationEnv} {x : Option String}
    {reason : CompensationReason} :
    (compensation env x reason o r).order.status = .confirmed
      ↔ o.status = .confirmed ∧ (r.status = .confirmed ∨ o.refundTarget x = none
        ∨ ∃ e, env.refund = .error e) := by
  rcases compensation_cases env x reason o r with ⟨ho, -, -, hs⟩ | ⟨r', hrel, -, -, h⟩
  · rw [ho]
    rcases hs with hs | hs <;> simp [hs]
  have hr : r.status ≠ .confirmed := fun hr => Reservation.not_released hr hrel
  rcases h with ⟨ht, -, ⟨hs, ho⟩ | ⟨hs, ho⟩⟩ | ⟨t, ht, ⟨⟨e, he⟩, ho, -⟩ | ⟨res, hres, ho, -⟩⟩
  · simp [ho, hs, ht]
  · simp [ho, hs]
  · simp [ho, he]
  · rw [ho, o.settled_status]
    split_ifs <;> simp [hr, ht, hres]

/-! ## Payment -/

/-- Tickets are issued where the issuer succeeds. -/
theorem fulfilment_tickets (env : PaymentEnv) (result : ChargeResult) (o : Order) (r : Reservation)
    (id : String) :
    ticketsIssued (fulfilment env result o r).events id
      = if env.issue = .ok () ∧ id = o.id then 1 else 0 := by
  have hcomp : ∀ cause o₁, ticketsIssued (unfulfilled env result cause o₁ r).events id = 0 :=
    fun cause o₁ => compensation_tickets _ _ _ o₁ r id
  have hcons : ∀ l, ticketsIssued l id = 0 →
      ticketsIssued (.ticketIssued o.id :: l) id = if id = o.id then 1 else 0 := by
    intro l hl
    unfold ticketsIssued at hl ⊢
    rw [List.count_cons, hl]
    by_cases hid : id = o.id
    · simp [hid]
    · simp [hid, Ne.symm hid]
  unfold fulfilment
  rcases env.issue with e | ⟨⟩
  · simpa using hcomp e o
  simp only [true_and]
  rcases o.confirm result.transactionId env.confirmAt with e | ⟨b, o'⟩
  · exact hcons _ (hcomp e o)
  · rcases r.confirm env.checkAt env.later with e | r'
    · exact hcons _ (hcomp e o')
    · exact hcons _ rfl

/-- When what follows a charge leaves the order CONFIRMED. -/
theorem fulfilment_confirmed_iff (env : PaymentEnv) (result : ChargeResult)
    (hs : o.status ≠ .confirmed) :
    (fulfilment env result o r).order.status = .confirmed
      ↔ env.issue = .ok () ∧ o.Confirmable ∧ (r.CanConfirm env.checkAt ∨ r.status = .confirmed
        ∨ (o.confirmedBy result.transactionId env.confirmAt).refundTarget result.transactionId
          = none
        ∨ ∃ e, env.compensation.refund = .error e) := by
  rcases fulfilment_cases env result r hs with ⟨hiss, hcon, hcan, ho, -⟩ |
    ⟨o₁, cause, pre, -, ho₁, ho, -⟩
  · simp [ho, hiss, hcon, hcan, Order.confirmedBy]
  rw [ho, compensation_confirmed_iff]
  rcases ho₁ with ⟨rfl, hno⟩ | ⟨rfl, hiss, hcon, hcan⟩
  · exact ⟨fun h => absurd h.1 hs, fun h => absurd ⟨h.1, h.2.1⟩ hno⟩
  · simp [hiss, hcon, hcan, Order.confirmedBy]

open Classical in
/-- The tickets a payment issues. -/
theorem payment_ticketsIssued (env : PaymentEnv) (command : ProcessPaymentCommand) (o : Order)
    (r : Reservation) (id : String) :
    ticketsIssued (payment env command o r).events id
      = if o.paidAttempt command.idempotencyKey = none ∧ o.status ≠ .confirmed ∧ env.issue = .ok ()
          ∧ (∃ result, env.charge = .ok result ∧ result.status = .success) ∧ id = o.id
        then 1 else 0 := by
  rcases payment_cases env command o r with ⟨-, -, hev, hs⟩ | ⟨hpaid, hs, ⟨⟨e, he⟩, -, -, hev⟩ |
    ⟨result, hch, -, -, hev⟩⟩
  · rw [hev]
    rcases hs with hs | hs <;> simp [hs, ticketsIssued]
  · rw [hev]
    simp [he, ticketsIssued]
  · rw [hev]
    by_cases hres : result.status = .success
    · have hf := fulfilment_tickets env result (o.attempted env command result) r id
      rw [o.attempted_id] at hf
      unfold ticketsIssued at hf ⊢
      simp [charged, hres, hpaid, hs, hch, hf]
    · have hnone : (charged env command result o r).events = [] :=
        (charged_unpaid env command o r hres).1
      simp [hnone, hch, hres, ticketsIssued]

/-- When a payment leaves an order CONFIRMED that was not. -/
theorem payment_confirmed_iff (env : PaymentEnv) (command : ProcessPaymentCommand)
    (hs : o.status ≠ .confirmed) :
    (payment env command o r).order.status = .confirmed
      ↔ o.paidAttempt command.idempotencyKey = none ∧ env.issue = .ok ()
        ∧ ∃ result, env.charge = .ok result ∧ result.status = .success ∧ o.Confirmable
          ∧ (r.CanConfirm env.checkAt ∨ r.status = .confirmed
            ∨ truthy result.transactionId = none ∧ truthy o.successTransactionId = none
            ∨ ∃ e, env.compensation.refund = .error e) := by
  rcases payment_cases env command o r with ⟨ho, -, -, hpaid⟩ | ⟨hpaid, -, ⟨⟨e, he⟩, ho, -⟩ |
    ⟨result, hch, ho, -⟩⟩
  · rw [ho]
    simp [hpaid.resolve_right hs, hs]
  · rw [ho, o.retried_status]
    split_ifs <;> simp [he, hs]
  · have hs' := retried_ne_confirmed hs env command result
    rw [ho]
    by_cases hres : result.status = .success
    · have hf := fulfilment_confirmed_iff (r := r) env result hs'
      rw [refundTarget_confirmedBy env command hres, Order.confirmable_attempted] at hf
      simp [charged, hres, hf, hpaid, hch]
    · obtain ⟨-, -, -, ho' | ⟨-, ho'⟩⟩ := charged_unpaid env command o r hres
      · simp [ho', hs', hch, hres]
      · simp [ho', hch, hres]

/-! ## Any call -/

/-- The call's tickets are for its own order. -/
theorem Call.effect_ticketsIssued_of_ne (c : Call) (w : World) (o : Order) (r : Reservation)
    {id : String} (hid : id ≠ o.id) : ticketsIssued (c.effect w o r).events id = 0 := by
  cases c with
  | initiateCheckout => rfl
  | expire => rfl
  | processPayment env command =>
    simp [effect, Effect.map, payment_ticketsIssued, hid]
  | handlePaymentWebhook env self payload =>
    simp only [effect, Effect.map, webhook]
    split_ifs with hseen hs
    · rfl
    · rfl
    · rw [(callback_cases env payload r hs).1]
      rfl
  | compensateOrder env orderId x reason => exact compensation_tickets env x reason o r id
  | retryCompensation env orderId =>
    simp only [effect]
    split_ifs
    · rfl
    · exact compensation_tickets env none .retry o r id

/-- The tickets an order should have. -/
def Order.tickets (o : Order) : ℕ := if o.status = .confirmed then 1 else 0

theorem Order.tickets_confirmed (h : o.status = .confirmed) : o.tickets = 1 := if_pos h

theorem Order.tickets_ne (h : o.status ≠ .confirmed) : o.tickets = 0 := if_neg h

/-- Tickets and confirmation stay in step: what is issued is what makes the order CONFIRMED. -/
def Effect.InStep {α : Type} (o : Order) (e : Effect α) : Prop :=
  ticketsIssued e.events o.id + o.tickets = e.order.tickets

theorem payment_inStep (env : PaymentEnv) (command : ProcessPaymentCommand) (w : World) (o : Order)
    (r : Reservation) :
    (payment env command o r).InStep o ↔ ¬ (Call.processPayment env command).Mistickets w o r := by
  unfold Effect.InStep
  rw [payment_ticketsIssued]
  by_cases hs : o.status = .confirmed
  · have ho : (payment env command o r).order = o := by
      rcases payment_cases env command o r with ⟨ho, -⟩ | ⟨-, hs', -⟩
      · exact ho
      · exact absurd hs hs'
    simp [Call.Mistickets, hs, ho]
  have hiff := payment_confirmed_iff (r := r) env command hs
  rw [Order.tickets_ne hs, Nat.add_zero]
  by_cases hissue : o.paidAttempt command.idempotencyKey = none ∧ env.issue = .ok ()
      ∧ ∃ result, env.charge = .ok result ∧ result.status = .success
  · obtain ⟨hpaid, hiss, result, hch, hres⟩ := hissue
    by_cases hc : (payment env command o r).order.status = .confirmed
    · rw [Order.tickets_confirmed hc]
      obtain ⟨-, -, result', hch', -, hend⟩ := hiff.1 hc
      obtain rfl : result = result' := by simpa [hch] using hch'
      refine iff_of_true (if_pos ⟨hpaid, hs, hiss, ⟨result, hch, hres⟩, rfl⟩) ?_
      rintro ⟨-, -, -, result'', hch'', -, hno⟩
      obtain rfl : result = result'' := by simpa [hch] using hch''
      exact hno hend
    · rw [Order.tickets_ne hc, if_pos ⟨hpaid, hs, hiss, ⟨result, hch, hres⟩, rfl⟩]
      exact iff_of_false (by simp) (not_not.2 ⟨hpaid, hs, hiss, result, hch, hres,
        fun h => hc (hiff.2 ⟨hpaid, hiss, result, hch, hres, h⟩)⟩)
  · have hno : (payment env command o r).order.status ≠ .confirmed := by
      rw [ne_eq, hiff]
      rintro ⟨h1, h2, result, h3, h4, -⟩
      exact hissue ⟨h1, h2, result, h3, h4⟩
    rw [if_neg fun h => hissue ⟨h.1, h.2.2.1, h.2.2.2.1⟩, Order.tickets_ne hno]
    refine iff_of_true rfl ?_
    rintro ⟨h1, -, h2, result, h3, h4, -⟩
    exact hissue ⟨h1, h2, result, h3, h4⟩

theorem webhook_inStep (env : WebhookEnv) (self : ℕ) (payload : PaymentWebhookPayload) (w : World)
    (o : Order) (r : Reservation) :
    (webhook env (w.processedWebhookEvents self) payload o r).InStep o
      ↔ ¬ (Call.handlePaymentWebhook env self payload).Mistickets w o r := by
  unfold webhook Effect.InStep Call.Mistickets
  split_ifs with hseen hs
  · simp [hseen, ticketsIssued]
  · simp [hs, ticketsIssued, Order.Confirmable]
  obtain ⟨hev, h⟩ := callback_cases env payload r hs
  rw [hev, Order.tickets_ne hs]
  rcases h with ⟨hp, -, -, ho⟩ | ⟨hp, he, ho, -⟩ | ⟨hp, he, hc, ho, -⟩ | ⟨hp, he, hc, ho, -⟩
  · rcases ho with ho | ⟨-, ho⟩ <;> simp [ho, hs, hp, ticketsIssued, Order.tickets]
  · simp [ho, he, ticketsIssued, Order.markRefundRequired, Order.tickets]
  · simp [ho, hs, hc, ticketsIssued, Order.tickets]
  · simp [ho, hc, hp, he, hseen, ticketsIssued, Order.confirmedBy, Order.tickets]

theorem compensation_inStep (env : CompensationEnv) (x : Option String)
    (reason : CompensationReason) (o : Order) (r : Reservation) :
    (compensation env x reason o r).InStep o
      ↔ ¬ (o.status = .confirmed ∧ r.status ≠ .confirmed ∧ o.refundTarget x ≠ none
        ∧ ∃ result, env.refund = .ok result) := by
  have hiff : (compensation env x reason o r).order.status = .confirmed ↔ _ :=
    compensation_confirmed_iff
  unfold Effect.InStep
  rw [compensation_tickets, Nat.zero_add]
  by_cases hs : o.status = .confirmed
  swap
  · rw [Order.tickets_ne hs, Order.tickets_ne fun h => hs (hiff.1 h).1]
    simp [hs]
  rw [Order.tickets_confirmed hs]
  by_cases hc : (compensation env x reason o r).order.status = .confirmed
  · rw [Order.tickets_confirmed hc]
    refine iff_of_true rfl ?_
    rintro ⟨-, hr, ht, res, hres⟩
    rcases (hiff.1 hc).2 with h | h | ⟨e, h⟩
    · exact hr h
    · exact ht h
    · simp [hres] at h
  · rw [Order.tickets_ne hc]
    refine iff_of_false (by simp) (not_not.2 ⟨hs, fun h => hc (hiff.2 ⟨hs, .inl h⟩),
      fun h => hc (hiff.2 ⟨hs, .inr (.inl h)⟩), ?_⟩)
    rcases href : env.refund with e | res
    · exact absurd (hiff.2 ⟨hs, .inr (.inr ⟨e, href⟩)⟩) hc
    · exact ⟨res, rfl⟩

theorem Call.effect_inStep (c : Call) (w : World) (o : Order) (r : Reservation) :
    (c.effect w o r).InStep o ↔ ¬ c.Mistickets w o r := by
  cases c with
  | initiateCheckout => exact iff_of_true (by simp [Effect.InStep, effect, ticketsIssued]) id
  | expire => exact iff_of_true (by simp [Effect.InStep, effect, ticketsIssued]) id
  | processPayment env command => exact payment_inStep env command w o r
  | handlePaymentWebhook env self payload => exact webhook_inStep env self payload w o r
  | compensateOrder env orderId x reason => exact compensation_inStep env x reason o r
  | retryCompensation env orderId =>
    refine iff_of_true ?_ id
    simp only [effect]
    split_ifs with hs
    · simp [Effect.InStep, ticketsIssued]
    · exact (compensation_inStep env none .retry o r).2 fun h => by simp [h.1] at hs

/-! ## Steps -/

/-- Tickets are issued for stored orders only. -/
def World.TicketsKnown (w : World) : Prop :=
  ∀ id, w.orders.get id = none → ticketsIssued w.log id = 0

/-- The orders and the tickets after a call: as before, but for the order the call is about, and
for an order just created. -/
theorem Call.ticket_cases (hl : w.Linked) {reply : Except WorkflowError Reply}
    (h : c.run w = some (reply, w')) :
    (∃ id o r, c.orderId = some id ∧ w.orders.get id = some o
        ∧ w.reservations.get o.reservationId = some r
        ∧ w'.orders.get id = some (c.effect w o r).order
        ∧ ticketsIssued w'.log id = ticketsIssued w.log id
          + ticketsIssued (c.effect w o r).events o.id
        ∧ ∀ id', id' ≠ id → w'.orders.get id' = w.orders.get id'
          ∧ ticketsIssued w'.log id' = ticketsIssued w.log id')
      ∨ w'.log = w.log ∧ (∀ id o, c.orderId = some id → w.orders.get id ≠ some o)
        ∧ ∀ id, w'.orders.get id = w.orders.get id
          ∨ w.orders.get id = none ∧ ∃ uid r amount,
            w'.orders.get id = some (Order.ofReservation uid r amount) := by
  rcases Call.cases hl h with ⟨hs, hnone⟩ | ⟨id, o, r, hid, ho, hr, -, hw'⟩ |
    ⟨uid, r, amount, hid, -, -, hfresh, rfl⟩ | ⟨r, hid, -, -, rfl⟩
  · exact .inr ⟨hs.log, fun id o hid ho => by simp [hnone id hid] at ho,
      fun id => .inl (by rw [hs.orders])⟩
  · have hf := c.effect_frame w o r
    have hoid : o.id = id := w.orders.get_key ho
    refine .inl ⟨id, o, r, hid, ho, hr, ?_, ?_, fun id' hne => ⟨?_, ?_⟩⟩
    · rw [hw'.orders, Repository.get_save, hf.id, hoid, if_pos rfl]
    · rw [hw'.log, ticketsIssued_append, hoid]
    · rw [hw'.orders, Repository.get_save_of_ne (by rwa [hf.id, hoid])]
    · rw [hw'.log, ticketsIssued_append, c.effect_ticketsIssued_of_ne w o r (by rwa [hoid]),
        Nat.add_zero]
  · refine .inr ⟨rfl, by simp [hid], fun id => ?_⟩
    by_cases h : id = uid.val
    · subst h
      exact .inr ⟨hfresh, uid, r, amount, Repository.get_save_self w.orders
        (Order.ofReservation uid r amount)⟩
    · exact .inl (Repository.get_save_of_ne (a := Order.ofReservation uid r amount) h)
  · exact .inr ⟨rfl, by simp [hid], fun id => .inl rfl⟩

theorem Call.ticketsKnown (hl : w.Linked) {reply : Except WorkflowError Reply}
    (h : c.run w = some (reply, w')) (hk : w.TicketsKnown) : w'.TicketsKnown := by
  intro id hid
  rcases Call.ticket_cases hl h with ⟨id₀, o, r, -, ho, -, ho', -, hrest⟩ | ⟨hlog, -, hrest⟩
  · have hne : id ≠ id₀ := by
      rintro rfl
      simp [ho'] at hid
    obtain ⟨h1, h2⟩ := hrest id hne
    rw [h2]
    exact hk id (h1 ▸ hid)
  · rw [hlog]
    rcases hrest id with h1 | ⟨h1, -⟩
    · exact hk id (h1 ▸ hid)
    · exact hk id h1

/-- A call keeps tickets and orders in step unless it mistickets one. -/
theorem ticketed_step (hl : w.Linked) (hk : w.TicketsKnown) {reply : Except WorkflowError Reply}
    (h : c.run w = some (reply, w')) (hP : w.Ticketed) : w'.Ticketed ↔ ¬ c.MisticketsIn w := by
  rcases Call.ticket_cases hl h with ⟨id, o, r, hid, ho, hr, ho', hlog, hrest⟩ |
    ⟨hlog, hnone, hrest⟩
  · have hmine : (∀ o', w'.orders.get id = some o' → ticketsIssued w'.log id
        = if o'.status = .confirmed then 1 else 0) ↔ (c.effect w o r).InStep o := by
      have hbefore : ticketsIssued w.log id = o.tickets := hP id o ho
      rw [hlog, hbefore, Nat.add_comm]
      constructor
      · exact fun h => h _ ho'
      · intro h o' ho₁
        obtain rfl := Option.some.inj (ho'.symm.trans ho₁)
        exact h
    have hin : c.MisticketsIn w ↔ c.Mistickets w o r :=
      Call.exists_own_iff hid ho hr (P := fun _ o r => c.Mistickets w o r)
    rw [hin, ← c.effect_inStep w o r, ← hmine]
    refine ⟨fun h => h id, fun h id' => ?_⟩
    by_cases hne : id' = id
    · exact hne ▸ h
    · obtain ⟨h1, h2⟩ := hrest id' hne
      rw [h1, h2]
      exact hP id'
  · refine iff_of_true (fun id o' ho' => ?_) fun ⟨id, o, _, hid, ho, _⟩ => hnone id o hid ho
    rw [hlog]
    rcases hrest id with h1 | ⟨h1, uid, r, amount, h2⟩
    · exact hP id o' (h1 ▸ ho')
    · obtain rfl := Option.some.inj (h2.symm.trans ho')
      exact hk id h1

/-! ## Runs -/

/-- After every call of a run the tickets issued are those of the CONFIRMED orders, one issue for
each, if and only if no call issues tickets for an order it does not leave CONFIRMED, confirms an
order without issuing any, or takes a CONFIRMED order back. -/
theorem tickets_iff {w₀ : World} (h₀ : w₀.Initial) {steps : List Step} (h : Run w₀ steps w) :
    ((∀ s ∈ steps, s.before.Ticketed) ∧ w.Ticketed)
      ↔ ∀ s ∈ steps, ¬ s.call.MisticketsIn s.before := by
  refine Run.iff_no_bad (I := fun w => w.Linked ∧ w.TicketsKnown) (A := fun _ => True)
    (B := Call.MisticketsIn) ?_ ?_ ?_ ⟨linked_of_initial h₀, fun id _ => ?_⟩ ?_ h fun _ _ => trivial
  · exact fun hi _ hc => ⟨Call.linked hi.1 hc, Call.ticketsKnown hi.1 hc hi.2⟩
  · exact fun hi _ hc hP hok => (ticketed_step hi.1 hi.2 hc hP).2 hok
  · exact fun hi _ hc hP hbad hP' => (ticketed_step hi.1 hi.2 hc hP).1 hP' hbad
  · rw [h₀.log]
    rfl
  · intro id o ho
    simp [h₀.orders] at ho

/-- A checkout, and the callback that confirms its order. -/
def confirmedByCallback : List Call := [checkoutAt 1 orderA, paidAt 2 "evt" "a" "t1"]

theorem confirmedByCallback_isSome : (runCalls [] heldWorld confirmedByCallback).isSome := by decide

theorem confirmedByCallback_unticketed :
    ¬ ((runCalls [] heldWorld confirmedByCallback).get confirmedByCallback_isSome).2.Ticketed := by
  intro hP
  have ho : ((runCalls [] heldWorld confirmedByCallback).get
      confirmedByCallback_isSome).2.orders.get "a" = some
        ((Order.ofReservation orderA heldSeat ⟨5000, "USD"⟩).confirmedBy (some "t1") 2) := rfl
  have hn := hP "a" _ ho
  revert hn
  decide

theorem tickets_iff_confirmedByCallback :
    ∃ steps w, Run heldWorld steps w ∧ ∃ s ∈ steps, s.call.MisticketsIn s.before := by
  obtain ⟨hrun, -⟩ := run_runCalls confirmedByCallback_isSome
  refine ⟨_, _, hrun, ?_⟩
  by_contra hno
  have hok := (tickets_iff heldWorld_initial hrun).2 fun s hs hbad => hno ⟨s, hs, hbad⟩
  exact confirmedByCallback_unticketed hok.2

/-- An order is CONFIRMED and no ticket was issued for it. -/
theorem confirmed_without_tickets :
    heldWorld.Initial ∧ ∃ steps w, Run heldWorld steps w ∧ ¬ w.Ticketed := by
  obtain ⟨hrun, -⟩ := run_runCalls confirmedByCallback_isSome
  exact ⟨heldWorld_initial, _, _, hrun, confirmedByCallback_unticketed⟩

end LaunchPad
