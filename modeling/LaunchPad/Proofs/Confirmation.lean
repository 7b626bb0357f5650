import LaunchPad.Proofs.Effects

/-!
# When orders and reservations contradict each other

A call confirms an order in two places, and in both `order.confirm` comes before
`reservation.confirm`, which may throw. A payment then compensates the order it has confirmed; a
callback does not. `Call.Confirms` is when an order ends up CONFIRMED (`Call.effect_confirmed`,
`Call.Confirms.order`), and from it follows exactly which runs keep every CONFIRMED order on a
CONFIRMED reservation (`non_contradictory_iff`), and which keep one of them for each reservation
(`single_confirmation_iff`).
-/

namespace LaunchPad

open Interleave Rows

variable {w w' : World} {o : Order} {r : Reservation} {c : Call}

/-! ## Compensation -/

theorem Reservation.not_released {r r' : Reservation} (hr : r.status = .confirmed) :
    r.released ≠ .ok r' := by
  intro h
  rcases released_cases h with ⟨-, h | h⟩ | ⟨h | h, -⟩ <;> simp [hr] at h

/-- A compensation leaves an order CONFIRMED only where it throws. -/
theorem compensation_confirmed {env : CompensationEnv} {x : Option String}
    {reason : CompensationReason} (hg : ∃ res, env.refund = .ok res)
    (h : (compensation env x reason o r).order.status = .confirmed) :
    o.status = .confirmed ∧ (r.status = .confirmed ∨ o.refundTarget x = none) := by
  rcases compensation_cases env x reason o r with ⟨ho, -, -, hs⟩ | ⟨r', -, -, -, h'⟩
  · rw [ho] at h
    rcases hs with hs | hs
    · simp [h] at hs
    · exact ⟨h, .inl hs⟩
  rcases h' with ⟨ht, -, ⟨hs, -⟩ | ⟨-, ho⟩⟩ | ⟨t, -, ⟨⟨e, he⟩, -⟩ | ⟨res, -, ho, -⟩⟩
  · exact ⟨hs, .inr ht⟩
  · rw [ho] at h
    simp at h
  · obtain ⟨res, hres⟩ := hg
    simp [hres] at he
  · rw [ho, o.settled_status] at h
    split_ifs at h

theorem compensation_of_confirmed {env : CompensationEnv} {x : Option String}
    {reason : CompensationReason} (hs : o.status = .confirmed)
    (h : r.status = .confirmed ∨ o.refundTarget x = none) :
    (compensation env x reason o r).order = o := by
  rcases compensation_cases env x reason o r with ⟨ho, -⟩ | ⟨r', hrel, -, -, h'⟩
  · exact ho
  have ht : o.refundTarget x = none := by
    rcases h with h | h
    · exact absurd hrel (Reservation.not_released h)
    · exact h
  rcases h' with ⟨-, -, ⟨-, ho⟩ | ⟨hs', -⟩⟩ | ⟨t, ht', -⟩
  · exact ho
  · exact absurd hs hs'
  · simp [ht] at ht'

theorem compensation_reservation {env : CompensationEnv} {x : Option String}
    {reason : CompensationReason} (hr : r.status ≠ .confirmed) :
    (compensation env x reason o r).reservation.status ≠ .confirmed := by
  rcases compensation_cases env x reason o r with ⟨-, hres, -⟩ | ⟨r', hrel, hres, -⟩
  · rwa [hres]
  · rw [hres]
    rcases Reservation.released_cases hrel with ⟨rfl, -⟩ | ⟨-, rfl⟩
    · exact hr
    · simp

/-! ## Payment -/

/-- The transaction a compensation finds for an order just confirmed by a charge. -/
theorem refundTarget_confirmedBy (env : PaymentEnv) (command : ProcessPaymentCommand)
    {result : ChargeResult} (h : result.status = .success) (at' : Time) :
    ((o.attempted env command result).confirmedBy result.transactionId at').refundTarget
        result.transactionId = none
      ↔ truthy result.transactionId = none ∧ truthy o.successTransactionId = none := by
  have hsucc : ((o.attempted env command result).confirmedBy result.transactionId
      at').successTransactionId = (o.attempted env command result).successTransactionId := rfl
  rw [Order.refundTarget, hsucc, Option.or_eq_none_iff, Option.or_eq_none_iff]
  rcases o.attempted_successTransactionId env command h with ⟨-, ho, ha⟩ | ⟨-, ha⟩
  · rw [ha, ho]
    exact ⟨fun h => ⟨h.1, rfl⟩, fun h => ⟨h.1, h.1, h.1⟩⟩
  · rw [ha]
    exact ⟨fun h => ⟨h.1, h.2.2⟩, fun h => ⟨h.1, h.1, h.2⟩⟩

theorem retried_ne_confirmed (h : o.status ≠ .confirmed) (env : PaymentEnv)
    (command : ProcessPaymentCommand) (result : ChargeResult) :
    (o.attempted env command result).status ≠ .confirmed := by
  rw [o.attempted_status, o.retried_status]
  split_ifs
  · simp
  · exact h

theorem payment_confirmed {env : PaymentEnv} {command : ProcessPaymentCommand}
    (hg : (Call.processPayment env command).GatewayAnswers)
    (h : (payment env command o r).order.status = .confirmed) :
    o.status = .confirmed ∨ (Call.processPayment env command).Confirms w o r := by
  rcases payment_cases env command o r with ⟨ho, -⟩ | ⟨hpaid, hs,
    ⟨⟨e, he⟩, -⟩ | ⟨result, hch, ho, -⟩⟩
  · rw [ho] at h
    exact .inl h
  · obtain ⟨⟨c, hc⟩, -⟩ := hg
    simp [he] at hc
  have hs' := retried_ne_confirmed hs env command result
  by_cases hres : result.status = .success
  · right
    rw [ho, charged, hres] at h
    rcases fulfilment_cases env result r hs' with ⟨hiss, hcon, hcan, -⟩ |
      ⟨o₁, cause, pre, -, ho₁, ho', -, -⟩
    · exact ⟨hpaid, Order.confirmable_attempted.1 hcon, hiss, result, hch, hres, .inl hcan⟩
    · simp only [ho'] at h
      obtain ⟨hs₁, hwhy⟩ := compensation_confirmed hg.2 h
      rcases ho₁ with ⟨rfl, -⟩ | ⟨rfl, hiss, hcon, -⟩
      · exact absurd hs₁ hs'
      · refine ⟨hpaid, Order.confirmable_attempted.1 hcon, hiss, result, hch, hres, .inr ?_⟩
        rwa [refundTarget_confirmedBy env command hres] at hwhy
  · obtain ⟨-, -, -, ho' | ⟨-, ho'⟩⟩ := charged_unpaid env command o r hres
    · rw [ho, ho'] at h
      exact absurd h hs'
    · rw [ho, ho'] at h
      simp at h

theorem payment_confirms {env : PaymentEnv} {command : ProcessPaymentCommand}
    (h : (Call.processPayment env command).Confirms w o r) :
    (∃ result, env.charge = .ok result ∧ (payment env command o r).order
        = (o.attempted env command result).confirmedBy result.transactionId env.confirmAt)
      ∧ (r.CanConfirm env.checkAt → (payment env command o r).reservation.status = .confirmed)
      ∧ (¬ r.CanConfirm env.checkAt → r.status ≠ .confirmed →
        (payment env command o r).reservation.status ≠ .confirmed) := by
  obtain ⟨hpaid, hcon, hiss, result, hch, hres, hwhy⟩ := h
  have hs : o.status ≠ .confirmed := by
    rcases hcon with h | h | h <;> simp [h]
  have hs' := retried_ne_confirmed hs env command result
  have hcon' : (o.attempted env command result).Confirmable := Order.confirmable_attempted.2 hcon
  rcases payment_cases env command o r with ⟨-, -, -, h | h⟩ | ⟨-, -, ⟨⟨e, he⟩, -⟩ |
    ⟨result', hch', ho, hr, -⟩⟩
  · exact absurd hpaid h
  · exact absurd h hs
  · simp [hch] at he
  obtain rfl : result = result' := by simpa [hch] using hch'
  rw [charged, hres] at ho hr
  rcases fulfilment_cases env result r hs' with ⟨-, -, hcan, ho', hr', -⟩ |
    ⟨o₁, cause, pre, -, ho₁, ho', hr', -⟩
  · rw [ho, hr]
    simp only [ho', hr']
    exact ⟨⟨result, hch, rfl⟩, fun _ => trivial, fun h => absurd hcan h⟩
  · rcases ho₁ with ⟨-, hno⟩ | ⟨rfl, -, -, hcan⟩
    · exact absurd ⟨hiss, hcon'⟩ hno
    rw [ho, hr]
    simp only [ho', hr']
    refine ⟨⟨result, hch, ?_⟩, fun h => absurd h hcan, fun _ hrs => compensation_reservation hrs⟩
    have hkeep := hwhy.resolve_left hcan
    rw [← refundTarget_confirmedBy env command hres env.confirmAt] at hkeep
    exact compensation_of_confirmed rfl hkeep

/-! ## Any call -/

/-- The order a call leaves CONFIRMED was so before, or the call confirms it. -/
theorem Call.effect_confirmed (hg : c.GatewayAnswers)
    (h : (c.effect w o r).order.status = .confirmed) :
    o.status = .confirmed ∨ c.Confirms w o r := by
  cases c with
  | initiateCheckout => exact .inl h
  | expire => exact .inl h
  | processPayment env command => exact payment_confirmed hg h
  | handlePaymentWebhook env self payload =>
    simp only [effect, Effect.map, webhook] at h
    split_ifs at h with hseen hs
    · exact .inl h
    · exact .inl h
    obtain ⟨-, ⟨-, -, -, ho⟩ | ⟨-, -, ho, -⟩ | ⟨-, -, -, ho, -⟩ | ⟨hp, he, hc, -⟩⟩ :=
      callback_cases env payload r hs
    · rcases ho with ho | ⟨-, ho⟩ <;> rw [ho] at h
      · exact .inl h
      · simp at h
    · rw [ho] at h
      simp [Order.markRefundRequired] at h
    · rw [ho] at h
      exact .inl h
    · exact .inr ⟨hseen, hp, hc, he⟩
  | compensateOrder env orderId x reason => exact .inl (compensation_confirmed hg h).1
  | retryCompensation env orderId =>
    simp only [effect] at h
    split_ifs at h
    · exact .inl h
    · exact .inl (compensation_confirmed hg h).1

/-- Where a call confirms its order, the order ends CONFIRMED, and the reservation where it can. -/
theorem Call.Confirms.effect (h : c.Confirms w o r) :
    (c.effect w o r).order.status = .confirmed
      ∧ (r.CanConfirm c.checkAt → (c.effect w o r).reservation.status = .confirmed)
      ∧ (¬ r.CanConfirm c.checkAt → r.status ≠ .confirmed →
        (c.effect w o r).reservation.status ≠ .confirmed) := by
  cases c with
  | initiateCheckout => exact h.elim
  | expire => exact h.elim
  | compensateOrder => exact h.elim
  | retryCompensation => exact h.elim
  | processPayment env command =>
    obtain ⟨⟨result, -, ho⟩, hr⟩ := payment_confirms h
    exact ⟨congrArg Order.status ho, hr⟩
  | handlePaymentWebhook env self payload =>
    obtain ⟨hseen, hp, hc, he⟩ := h
    have hs : o.status ≠ .confirmed := by
      rcases hc with h | h | h <;> simp [h]
    simp only [Call.effect, Effect.map, webhook, if_neg hseen, if_neg hs, checkAt]
    obtain ⟨-, ⟨hp', -⟩ | ⟨-, he', -⟩ | ⟨-, -, hc', -⟩ | ⟨-, -, -, ho, hr⟩⟩ :=
      callback_cases env payload r hs
    · exact absurd hp hp'
    · exact absurd he' he
    · exact absurd hc hc'
    · refine ⟨by rw [ho]; rfl, fun hcan => ?_, fun hcan hrs => ?_⟩ <;>
        rcases hr with ⟨hcan', hr, -⟩ | ⟨hcan', hr, -⟩
      · rw [hr]
      · exact absurd hcan hcan'
      · exact absurd hcan' hcan
      · rwa [hr]

/-! ## Steps -/

theorem Leaves.get_order {α : Type} {e : Effect α} (hl : Leaves w e w') (hf : e.Frame o r)
    {id : String} {o' : Order} (h : w'.orders.get id = some o') :
    id = o.id ∧ o' = e.order ∨ id ≠ o.id ∧ w.orders.get id = some o' := by
  rw [hl.orders, Repository.get_save, hf.id] at h
  split_ifs at h with hid
  · exact .inl ⟨hid, (Option.some.inj h).symm⟩
  · exact .inr ⟨hid, h⟩

theorem Leaves.get_reservation {α : Type} {e : Effect α} (hl : Leaves w e w') (hf : e.Frame o r)
    (id : String) :
    w'.reservations.get id = if id = r.id then some e.reservation else w.reservations.get id := by
  rw [hl.reservations, Repository.get_save, hf.moves.id]

/-- Some reservation is stored under every id that had one, and a CONFIRMED one stays so. -/
def World.Keeps (w w' : World) : Prop :=
  ∀ id r, w.reservations.get id = some r → ∃ r', w'.reservations.get id = some r'
    ∧ (r.status = .confirmed → r'.status = .confirmed)

theorem keeps_save (r r' : Reservation) (hr : w.reservations.get r.id = some r) (hm : r.Moves r')
    (h : w'.reservations = w.reservations.save r') : w.Keeps w' := by
  intro id r₁ h₁
  rw [h, Repository.get_save, hm.id]
  split_ifs with hid
  · rw [hid, hr] at h₁
    exact ⟨r', rfl, fun hs => hm.confirmed (Option.some.inj h₁ ▸ hs)⟩
  · exact ⟨r₁, h₁, fun hs => hs⟩

/-- Every call keeps the reservations. -/
theorem Call.keeps (hl : w.Linked) {reply : Except WorkflowError Reply}
    (h : c.run w = some (reply, w')) : w.Keeps w' := by
  rcases Call.cases hl h with ⟨hs, -⟩ | ⟨id, o, r, -, ho, hr, -, hw'⟩ |
    ⟨uid, r, amount, -, hr, hs, -, rfl⟩ | ⟨r, -, hr, ho, rfl⟩
  · intro id r hr
    exact ⟨r, by rw [hs.reservations, hr], fun h => h⟩
  · have hrid : r.id = o.reservationId := w.reservations.get_key hr
    exact keeps_save r _ (by rw [hrid, hr]) (c.effect_frame w o r).moves hw'.reservations
  · exact keeps_save r _ hr (.inr ⟨.inl hs, _, rfl⟩) rfl
  · exact keeps_save r _ hr (.inr ⟨ho, _, rfl⟩) rfl

/-- An order stored after a call was stored before, with the call's effect if it is the call's, or
is one that has just been created. -/
theorem Call.order_cases (hl : w.Linked) {reply : Except WorkflowError Reply}
    (h : c.run w = some (reply, w')) {id : String} {o' : Order}
    (ho' : w'.orders.get id = some o') :
    w.orders.get id = some o'
      ∨ (∃ o r, c.orderId = some id ∧ w.orders.get id = some o
        ∧ w.reservations.get o.reservationId = some r ∧ Leaves w (c.effect w o r) w'
        ∧ o' = (c.effect w o r).order)
      ∨ ∃ uid r amount, w.orders.get id = none ∧ w.reservations.get r.id = some r
        ∧ o' = Order.ofReservation uid r amount := by
  rcases Call.cases hl h with ⟨hs, -⟩ | ⟨id₀, o, r, hid₀, ho, hr, -, hw'⟩ |
    ⟨uid, r, amount, -, hr, -, hfresh, rfl⟩ | ⟨r, -, -, -, rfl⟩
  · rw [hs.orders] at ho'
    exact .inl ho'
  · have hid : o.id = id₀ := w.orders.get_key ho
    rcases hw'.get_order (c.effect_frame w o r) ho' with ⟨h1, h2⟩ | ⟨-, h1⟩
    · rw [h1, hid]
      exact .inr (.inl ⟨o, r, hid₀, ho, hr, hw', h2⟩)
    · exact .inl h1
  · change (w.orders.save (.ofReservation uid r amount)).get id = some o' at ho'
    rw [Repository.get_save] at ho'
    split_ifs at ho' with hid
    · rw [hid]
      exact .inr (.inr ⟨uid, r, amount, hfresh, hr, (Option.some.inj ho').symm⟩)
    · exact .inl ho'
  · exact .inl ho'

theorem Call.linked (hl : w.Linked) {reply : Except WorkflowError Reply}
    (h : c.run w = some (reply, w')) : w'.Linked := by
  intro id o' ho'
  have hres : ∃ r, w.reservations.get o'.reservationId = some r := by
    rcases Call.order_cases hl h ho' with ho | ⟨o, r, -, ho, hr, -, rfl⟩ |
      ⟨uid, r, amount, -, hr, rfl⟩
    · exact hl id o' ho
    · rw [(c.effect_frame w o r).reservationId]
      exact ⟨r, hr⟩
    · exact ⟨r, hr⟩
  obtain ⟨r, hr⟩ := hres
  obtain ⟨r', hr', -⟩ := Call.keeps hl h _ r hr
  exact ⟨r', hr'⟩

theorem linked_of_initial (h : w.Initial) : w.Linked := by
  intro id o ho
  rw [h.orders] at ho
  simp at ho

/-- A call that confirms no order alone leaves no contradiction. -/
theorem nonContradictory_step (hl : w.Linked) (hg : c.GatewayAnswers)
    {reply : Except WorkflowError Reply} (h : c.run w = some (reply, w'))
    (hP : w.NonContradictory) (hok : ¬ c.ConfirmsAlone w) : w'.NonContradictory := by
  intro id o' ho' hs'
  -- the reservation was CONFIRMED before, unless the call confirms it
  have hwas : w.orders.get id = some o' ∨ (∃ o, w.orders.get id = some o ∧ o.status = .confirmed
      ∧ o.reservationId = o'.reservationId) ∨ ∃ r', w'.reservations.get o'.reservationId = some r'
        ∧ r'.status = .confirmed := by
    rcases Call.order_cases hl h ho' with ho | ⟨o, r, hid, ho, hr, hw', rfl⟩ |
      ⟨uid, r, amount, -, -, rfl⟩
    · exact .inl ho
    · have hf := c.effect_frame w o r
      have hrid : r.id = o.reservationId := w.reservations.get_key hr
      rcases Call.effect_confirmed hg hs' with hs | hcon
      · exact .inr (.inl ⟨o, ho, hs, hf.reservationId.symm⟩)
      · right; right
        refine ⟨(c.effect w o r).reservation, ?_, ?_⟩
        · rw [hw'.get_reservation hf, hf.reservationId, hrid, if_pos rfl]
        by_cases hrs : r.status = .confirmed
        · exact hf.moves.confirmed hrs
        · refine hcon.effect.2.1 ?_
          by_contra hcan
          exact hok ⟨id, o, r, hid, ho, hr, hcon, hrs, hcan⟩
    · simp [Order.ofReservation] at hs'
  rcases hwas with ho | ⟨o, ho, hs, hrid⟩ | hr
  · obtain ⟨r, hr, hrs⟩ := hP id o' ho hs'
    obtain ⟨r', hr', hk⟩ := Call.keeps hl h _ r hr
    exact ⟨r', hr', hk hrs⟩
  · obtain ⟨r, hr, hrs⟩ := hP id o ho hs
    rw [hrid] at hr
    obtain ⟨r', hr', hk⟩ := Call.keeps hl h _ r hr
    exact ⟨r', hr', hk hrs⟩
  · exact hr

/-- A call that confirms an order alone leaves a contradiction. -/
theorem contradictory_step {reply : Except WorkflowError Reply} (h : c.run w = some (reply, w'))
    (hbad : c.ConfirmsAlone w) : ¬ w'.NonContradictory := by
  obtain ⟨id, o, r, hid, ho, hr, hcon, hrs, hcan⟩ := hbad
  obtain ⟨-, hw'⟩ := Call.run_eq_effect h hid ho hr
  have hf := c.effect_frame w o r
  have hoid : o.id = id := w.orders.get_key ho
  have hrid : r.id = o.reservationId := w.reservations.get_key hr
  obtain ⟨hs, -, hrs'⟩ := hcon.effect
  intro hP
  obtain ⟨r', hr', hcr⟩ := hP id (c.effect w o r).order
    (by rw [hw'.orders, Repository.get_save, hf.id, hoid, if_pos rfl]) hs
  rw [hw'.get_reservation hf, hf.reservationId, hrid, if_pos rfl] at hr'
  exact hrs' hcan hrs (Option.some.inj hr' ▸ hcr)

theorem Call.Confirms.not_confirmed (h : c.Confirms w o r) : o.status ≠ .confirmed := by
  have hc : o.Confirmable := by
    cases c with
    | processPayment => exact h.2.1
    | handlePaymentWebhook => exact h.2.2.1
    | initiateCheckout => exact h.elim
    | expire => exact h.elim
    | compensateOrder => exact h.elim
    | retryCompensation => exact h.elim
  rcases hc with h | h | h <;> simp [h]

theorem singleConfirmation_step (hl : w.Linked) (hg : c.GatewayAnswers)
    {reply : Except WorkflowError Reply} (h : c.run w = some (reply, w'))
    (hP : w.SingleConfirmation) (hok : ¬ c.ConfirmsAgain w) : w'.SingleConfirmation := by
  -- an order CONFIRMED now was so before, or is the one the call confirms
  have hwas : ∀ id o', w'.orders.get id = some o' → o'.status = .confirmed →
      (∃ o, w.orders.get id = some o ∧ o.status = .confirmed ∧ o.reservationId = o'.reservationId)
        ∨ ∃ o r, c.orderId = some id ∧ w.orders.get id = some o
          ∧ w.reservations.get o.reservationId = some r ∧ c.Confirms w o r
          ∧ o.reservationId = o'.reservationId := by
    intro id o' ho' hs'
    rcases Call.order_cases hl h ho' with ho | ⟨o, r, hid, ho, hr, -, rfl⟩ |
      ⟨uid, r, amount, -, -, rfl⟩
    · exact .inl ⟨o', ho, hs', rfl⟩
    · have hf := c.effect_frame w o r
      rcases Call.effect_confirmed hg hs' with hs | hcon
      · exact .inl ⟨o, ho, hs, hf.reservationId.symm⟩
      · exact .inr ⟨o, r, hid, ho, hr, hcon, hf.reservationId.symm⟩
    · simp [Order.ofReservation] at hs'
  intro id₁ id₂ o₁ o₂ ho₁ ho₂ hrid hs₁ hs₂
  rcases hwas id₁ o₁ ho₁ hs₁ with ⟨p₁, hp₁, hc₁, he₁⟩ | ⟨p₁, r₁, hid₁, hp₁, hr₁, hc₁, he₁⟩ <;>
    rcases hwas id₂ o₂ ho₂ hs₂ with ⟨p₂, hp₂, hc₂, he₂⟩ | ⟨p₂, r₂, hid₂, hp₂, hr₂, hc₂, he₂⟩
  · exact hP id₁ id₂ p₁ p₂ hp₁ hp₂ (by rw [he₁, hrid, he₂]) hc₁ hc₂
  · exact absurd ⟨id₂, p₂, r₂, hid₂, hp₂, hr₂, hc₂, id₁, p₁, hp₁, by rw [he₁, hrid, he₂], hc₁⟩ hok
  · exact absurd ⟨id₁, p₁, r₁, hid₁, hp₁, hr₁, hc₁, id₂, p₂, hp₂, by rw [he₁, hrid, he₂], hc₂⟩ hok
  · rw [hid₁] at hid₂
    exact Option.some.inj hid₂

theorem doubleConfirmation_step {reply : Except WorkflowError Reply}
    (h : c.run w = some (reply, w')) (hbad : c.ConfirmsAgain w) : ¬ w'.SingleConfirmation := by
  obtain ⟨id, o, r, hid, ho, hr, hcon, id', o', ho', hrid', hs'⟩ := hbad
  obtain ⟨-, hw'⟩ := Call.run_eq_effect h hid ho hr
  have hf := c.effect_frame w o r
  have hoid : o.id = id := w.orders.get_key ho
  have hne : id' ≠ id := by
    rintro rfl
    rw [ho] at ho'
    exact hcon.not_confirmed (Option.some.inj ho' ▸ hs')
  intro hP
  refine hne (hP id' id o' (c.effect w o r).order ?_ ?_ ?_ hs' hcon.effect.1)
  · rw [hw'.orders, Repository.get_save_of_ne (by rw [hf.id, hoid]; exact hne), ho']
  · rw [hw'.orders, Repository.get_save, hf.id, hoid, if_pos rfl]
  · rw [hrid', hf.reservationId]

/-! ## Runs -/

/-- What every call of the kind `A` keeps holds after every run of such calls. -/
theorem Run.invariant_of {A : Call → Prop} {I : World → Prop}
    (hI : ∀ {w c reply w'}, I w → A c → Call.run c w = some (reply, w') → I w') {w₀ : World}
    {steps : List Step} (h : Run w₀ steps w) (hA : ∀ s ∈ steps, A s.call) (h₀ : I w₀) : I w := by
  induction h with
  | nil => exact h₀
  | @snoc steps w₁ w₂ reply _ c hc ih =>
    exact hI (ih fun s hs => hA s (List.mem_append_left _ hs)) (hA ⟨w₁, c, reply⟩ (by simp)) hc

/-- What every call keeps holds after every run. -/
theorem Run.invariant {I : World → Prop}
    (hI : ∀ {w c reply w'}, I w → Call.run c w = some (reply, w') → I w') {w₀ : World}
    {steps : List Step} (h : Run w₀ steps w) (h₀ : I w₀) : I w :=
  h.invariant_of (A := fun _ => True) (fun hi _ hc => hI hi hc) (fun _ _ => trivial) h₀

theorem Run.linked {w₀ : World} {steps : List Step} (h : Run w₀ steps w) (h₀ : w₀.Linked) :
    w.Linked := h.invariant (fun hl hc => Call.linked hl hc) h₀

/-- A property that every step but the bad ones keeps, and every bad one breaks, holds all along a
run if and only if none of its steps is bad. -/
theorem Run.iff_no_bad {I P : World → Prop} {A : Call → Prop} {B : Call → World → Prop}
    (hI : ∀ {w c reply w'}, I w → A c → Call.run c w = some (reply, w') → I w')
    (hkeep : ∀ {w c reply w'}, I w → A c → Call.run c w = some (reply, w') → P w → ¬ B c w → P w')
    (hbreak : ∀ {w c reply w'}, I w → A c → Call.run c w = some (reply, w') → P w → B c w → ¬ P w')
    {w₀ : World} {steps : List Step} (hi : I w₀) (h₀ : P w₀) (h : Run w₀ steps w)
    (hA : ∀ s ∈ steps, A s.call) :
    ((∀ s ∈ steps, P s.before) ∧ P w) ↔ ∀ s ∈ steps, ¬ B s.call s.before := by
  induction h with
  | nil => simp [h₀]
  | @snoc steps w₁ w₂ reply hrun c hc ih =>
    have hAc : A c := hA ⟨w₁, c, reply⟩ (by simp)
    have hsteps : ∀ s ∈ steps, A s.call := fun s hs => hA s (List.mem_append_left _ hs)
    have hi₁ : I w₁ := hrun.invariant_of hI hsteps hi
    have ih := ih hsteps
    simp only [List.forall_mem_append, List.forall_mem_singleton]
    rw [← ih]
    constructor
    · rintro ⟨⟨hP, hP₁⟩, hP₂⟩
      exact ⟨⟨hP, hP₁⟩, fun hbad => hbreak hi₁ hAc hc hP₁ hbad hP₂⟩
    · rintro ⟨⟨hP, hP₁⟩, hok⟩
      exact ⟨⟨hP, hP₁⟩, hkeep hi₁ hAc hc hP₁ hok⟩

theorem nonContradictory_of_initial (h : w.Initial) : w.NonContradictory := by
  intro id o ho
  rw [h.orders] at ho
  simp at ho

theorem singleConfirmation_of_initial (h : w.Initial) : w.SingleConfirmation := by
  intro id₁ id₂ o₁ o₂ ho
  rw [h.orders] at ho
  simp at ho

/-- In a run whose gateway gives results, every CONFIRMED order has its reservation CONFIRMED after
every call if and only if no call confirms an order whose reservation is not CONFIRMED and cannot
be. -/
theorem non_contradictory_iff {w₀ : World} (h₀ : w₀.Initial) {steps : List Step}
    (h : Run w₀ steps w) (hg : ∀ s ∈ steps, s.call.GatewayAnswers) :
    ((∀ s ∈ steps, s.before.NonContradictory) ∧ w.NonContradictory)
      ↔ ∀ s ∈ steps, ¬ s.call.ConfirmsAlone s.before :=
  Run.iff_no_bad (B := Call.ConfirmsAlone) (fun hl _ h => Call.linked hl h)
    (fun hl hg h => nonContradictory_step hl hg h) (fun _ _ h _ => contradictory_step h)
    (linked_of_initial h₀)
    (nonContradictory_of_initial h₀) h hg

/-- A decline frees the reservation for a second order, whose compensation cancels it; then the
first order's payment is reported. -/
def siblingCancelled : List Call :=
  [checkoutAt 1 orderA, payAt 2 "a" "k1" ⟨.declined, none, none⟩, checkoutAt 3 orderB,
    .compensateOrder (refundAt 4) "b" none .downstreamFailed, paidAt 5 "evt" "a" "t1"]

theorem siblingCancelled_isSome : (runCalls [] heldWorld siblingCancelled).isSome := by decide

theorem siblingCancelled_answers : ∀ c ∈ siblingCancelled, c.GatewayAnswers := by
  simp [siblingCancelled, checkoutAt, payAt, paidAt, refundAt, Call.GatewayAnswers]

/-- The first order is CONFIRMED and the reservation CANCELLED. -/
theorem siblingCancelled_contradictory :
    ¬ ((runCalls [] heldWorld siblingCancelled).get siblingCancelled_isSome).2.NonContradictory := by
  intro hP
  have ho : (((runCalls [] heldWorld siblingCancelled).get
      siblingCancelled_isSome).2.orders.get "a").map
        (fun o => (o.status, o.reservationId)) = some (.confirmed, "r1") := by decide
  have hr : (((runCalls [] heldWorld siblingCancelled).get
      siblingCancelled_isSome).2.reservations.get "r1").map (·.status) = some .cancelled := by
        decide
  obtain ⟨o, ho, hs⟩ := Option.map_eq_some_iff.1 ho
  simp only [Prod.mk.injEq] at hs
  obtain ⟨r, hr', hrs⟩ := hP "a" o ho hs.1
  rw [hs.2] at hr'
  rw [hr'] at hr
  simp [hrs] at hr

theorem non_contradictory_iff_siblingCancelled :
    ∃ steps w, Run heldWorld steps w ∧ ∃ s ∈ steps, s.call.ConfirmsAlone s.before := by
  obtain ⟨hrun, hcalls⟩ := run_runCalls siblingCancelled_isSome
  refine ⟨_, _, hrun, ?_⟩
  by_contra hno
  have hok := (non_contradictory_iff heldWorld_initial hrun fun s hs =>
    siblingCancelled_answers s.call (hcalls ▸ List.mem_map_of_mem hs)).2 fun s hs hbad =>
      hno ⟨s, hs, hbad⟩
  exact siblingCancelled_contradictory hok.2

/-- With a gateway that answers and a clock that never goes back, an order is CONFIRMED on a
CANCELLED reservation. -/
theorem confirmed_on_cancelled :
    heldWorld.Initial ∧ ∃ steps w, Run heldWorld steps w
      ∧ (∀ s ∈ steps, s.call.GatewayAnswers)
      ∧ ((steps.map Step.call).flatMap Call.readings).Pairwise (· ≤ ·)
      ∧ ¬ w.NonContradictory := by
  obtain ⟨hrun, hcalls⟩ := run_runCalls siblingCancelled_isSome
  refine ⟨heldWorld_initial, _, _, hrun, fun s hs => ?_, ?_, siblingCancelled_contradictory⟩
  · exact siblingCancelled_answers s.call (hcalls ▸ List.mem_map_of_mem hs)
  · rw [hcalls]
    decide

/-- In a run whose gateway gives results, no reservation has two CONFIRMED orders after any call if
and only if no call confirms an order while another order of its reservation is CONFIRMED. -/
theorem single_confirmation_iff {w₀ : World} (h₀ : w₀.Initial) {steps : List Step}
    (h : Run w₀ steps w) (hg : ∀ s ∈ steps, s.call.GatewayAnswers) :
    ((∀ s ∈ steps, s.before.SingleConfirmation) ∧ w.SingleConfirmation)
      ↔ ∀ s ∈ steps, ¬ s.call.ConfirmsAgain s.before :=
  Run.iff_no_bad (B := Call.ConfirmsAgain) (fun hl _ h => Call.linked hl h)
    (fun hl hg h => singleConfirmation_step hl hg h) (fun _ _ h _ => doubleConfirmation_step h)
    (linked_of_initial h₀) (singleConfirmation_of_initial h₀) h hg

/-- The second order of the reservation is paid, and then the first. -/
def siblingConfirmed : List Call :=
  [checkoutAt 1 orderA, payAt 2 "a" "k1" ⟨.declined, none, none⟩, checkoutAt 3 orderB,
    payAt 4 "b" "k2" ⟨.success, some "t1", none⟩, payAt 5 "a" "k3" ⟨.success, some "t2", none⟩]

theorem siblingConfirmed_isSome : (runCalls [] heldWorld siblingConfirmed).isSome := by decide

theorem siblingConfirmed_answers : ∀ c ∈ siblingConfirmed, c.GatewayAnswers := by
  simp [siblingConfirmed, checkoutAt, payAt, refundAt, Call.GatewayAnswers]

/-- Both orders are CONFIRMED. -/
theorem siblingConfirmed_double :
    ¬ ((runCalls [] heldWorld siblingConfirmed).get siblingConfirmed_isSome).2.SingleConfirmation := by
  intro hP
  have hw : ∀ id, id = "a" ∨ id = "b" → (((runCalls [] heldWorld siblingConfirmed).get
      siblingConfirmed_isSome).2.orders.get id).map
        (fun o => (o.status, o.reservationId)) = some (.confirmed, "r1") := by
    rintro _ (rfl | rfl) <;> decide
  obtain ⟨o, ho, hs⟩ := Option.map_eq_some_iff.1 (hw "a" (.inl rfl))
  obtain ⟨o', ho', hs'⟩ := Option.map_eq_some_iff.1 (hw "b" (.inr rfl))
  simp only [Prod.mk.injEq] at hs hs'
  have := hP "a" "b" o o' ho ho' (by rw [hs.2, hs'.2]) hs.1 hs'.1
  simp at this

theorem single_confirmation_iff_siblingConfirmed :
    ∃ steps w, Run heldWorld steps w ∧ ∃ s ∈ steps, s.call.ConfirmsAgain s.before := by
  obtain ⟨hrun, hcalls⟩ := run_runCalls siblingConfirmed_isSome
  refine ⟨_, _, hrun, ?_⟩
  by_contra hno
  have hok := (single_confirmation_iff heldWorld_initial hrun fun s hs =>
    siblingConfirmed_answers s.call (hcalls ▸ List.mem_map_of_mem hs)).2 fun s hs hbad =>
      hno ⟨s, hs, hbad⟩
  exact siblingConfirmed_double hok.2

/-- With a gateway that answers and a clock that never goes back, one reservation is sold twice. -/
theorem confirmed_twice :
    heldWorld.Initial ∧ ∃ steps w, Run heldWorld steps w
      ∧ (∀ s ∈ steps, s.call.GatewayAnswers)
      ∧ ((steps.map Step.call).flatMap Call.readings).Pairwise (· ≤ ·)
      ∧ ¬ w.SingleConfirmation := by
  obtain ⟨hrun, hcalls⟩ := run_runCalls siblingConfirmed_isSome
  refine ⟨heldWorld_initial, _, _, hrun, fun s hs => ?_, ?_, siblingConfirmed_double⟩
  · exact siblingConfirmed_answers s.call (hcalls ▸ List.mem_map_of_mem hs)
  · rw [hcalls]
    decide

end LaunchPad
