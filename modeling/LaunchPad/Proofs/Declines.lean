import LaunchPad.Proofs.Callback

/-!
# Declined payments

A declined payment leaves its order PAYMENT_DECLINED and puts the reservation back from
PAYMENT_PENDING to PENDING, so that the order can be paid again. The next payment puts the order
back to PAYMENT_PENDING, but not the reservation: if it is declined too, `revertPaymentDecline`
throws. So one decline can be recovered from, and no more (`recovers_iff_one`).
-/

namespace LaunchPad

open Interleave Rows

variable {w : World} {o : Order} {r : Reservation}

/-- A payment with its surroundings. -/
structure Payment where
  env : PaymentEnv
  command : ProcessPaymentCommand

def Payment.call (p : Payment) : Call := .processPayment p.env p.command

/-- The gateway answers the charge with this status, and no reading of the clock is past
`expiresAt`. -/
structure Payment.Charged (p : Payment) (orderId : String) (expiresAt : Time)
    (status : ChargeStatus) : Prop where
  order : p.command.orderId = orderId
  charge : ∃ result, p.env.charge = .ok result ∧ result.status = status
  inTime : ∀ t ∈ p.call.readings, t ≤ expiresAt

/-- One after another, the payments return, each declined and recoverable. -/
def DeclinedAll : World → List Payment → World → Prop
  | w, [], w' => w' = w
  | w, p :: ps, w' => ∃ b w₁, p.call.run w = some (.ok (.payment b), w₁) ∧ b.success = false
    ∧ b.recoverable = true ∧ b.status = .paymentDeclined ∧ DeclinedAll w₁ ps w'

/-- The stored order and its reservation. -/
def World.Holds (w : World) (orderId : String) (P : Order → Reservation → Prop) : Prop :=
  ∃ o r, w.orders.get orderId = some o ∧ w.reservations.get o.reservationId = some r ∧ P o r

/-- The checkout returns an order; the payments are declined one after another and leave it
PAYMENT_DECLINED, with an attempt for each, and the reservation PENDING; and the last one confirms
both. -/
def Recovers (w : World) (env : CheckoutEnv) (command : InitiateCheckoutCommand)
    (declines : List Payment) (last : Payment) : Prop :=
  ∃ o w₁ w₂ w₃ b, (Call.initiateCheckout env command).run w = some (.ok (.order o), w₁)
    ∧ DeclinedAll w₁ declines w₂
    ∧ w₂.Holds o.id (fun o r => o.status = .paymentDeclined
      ∧ o.paymentAttempts.length = declines.length ∧ r.status = .pending)
    ∧ last.call.run w₂ = some (.ok (.payment b), w₃)
    ∧ w₃.Holds o.id (fun o r => o.status = .confirmed ∧ r.status = .confirmed)

/-! ## The three kinds of calls -/

/-- A checkout of a PENDING reservation that has not run out. -/
theorem checkout_run {env : CheckoutEnv} {command : InitiateCheckoutCommand}
    (hr : w.reservations.get command.reservationId = some r) (hs : r.status = .pending)
    (hin : env.now ≤ r.expiresAt) (hnew : w.orders.get env.orderId.val = none) :
    (initiateCheckout env command).run w
      = some (.ok (.ofReservation env.orderId r command.totalAmount),
        (w.saveReservation { r with status := .paymentPending }).saveOrder
          (.ofReservation env.orderId r command.totalAmount)) := by
  have hget : (w.saveReservation { r with status := .paymentPending }).reservations.get
      command.reservationId = some { r with status := .paymentPending } := by
    rw [← w.reservations.get_key hr]
    exact Repository.get_save_self _ _
  have hwait : (Sync.waitFor fun w : World => w.orders.get env.orderId.val = none : Segment Unit)
      (w.saveReservation { r with status := .paymentPending })
        = some (.ok (), w.saveReservation { r with status := .paymentPending }) := if_pos hnew
  simp only [initiateCheckout, Async.run_bind, Async.run_await, Sync.bind_apply, Sync.read_apply, hr,
    orNotFound, Async.run_pure, Sync.pure_apply, startCheckout_ok hr hs hin, createOrder,
    derefReservation, hget, Option.map_some, hwait, Sync.modify_apply]
  rfl

/-- The answer of a declined payment. -/
def ProcessPaymentResult.Recoverable (b : ProcessPaymentResult) : Prop :=
  b.success = false ∧ b.recoverable = true ∧ b.status = .paymentDeclined

theorem charged_declined (env : PaymentEnv) (command : ProcessPaymentCommand) {result : ChargeResult}
    (h : result.status = .declined ∨ result.status = .failed) (o : Order) (r : Reservation) :
    ∃ a : ProcessPaymentResult, a.Recoverable ∧ charged env command result o r
      = declination (o.attempted env command result) r env.checkAt a := by
  rcases h with h | h <;> rcases result with ⟨_ | _ | _ | _, t, m⟩ <;> simp only [reduceCtorEq] at h
  · exact ⟨_, ⟨rfl, rfl, rfl⟩, rfl⟩
  · exact ⟨_, ⟨rfl, rfl, rfl⟩, rfl⟩

theorem Payment.Charged.checkAt_le {p : Payment} {orderId : String} {expiresAt : Time}
    {status : ChargeStatus} (h : p.Charged orderId expiresAt status) : p.env.checkAt ≤ expiresAt :=
  h.inTime _ (by simp [call, Call.readings])

/-- A declined payment of an order that can be paid goes on to decline it. -/
theorem declined_payment {p : Payment} {orderId : String} {status : ChargeStatus}
    (hp : p.Charged orderId r.expiresAt status) (hd : status = .declined ∨ status = .failed)
    (hs : o.status ≠ .confirmed) (hunpaid : o.paidAttempt p.command.idempotencyKey = none) :
    ∃ result a, p.env.charge = .ok result ∧ result.status = status ∧ a.Recoverable ∧
      let d := declination (o.attempted p.env p.command result) r p.env.checkAt a
      let e := payment p.env p.command o r
      e.result = d.result ∧ e.order = d.order ∧ e.reservation = d.reservation := by
  obtain ⟨result, hcharge, hstatus⟩ := hp.charge
  obtain ⟨a, ha, hcharged⟩ := charged_declined p.env p.command (hstatus ▸ hd) o r
  refine ⟨result, a, hcharge, hstatus, ha, ?_⟩
  simp [payment, hunpaid, hs, hcharge, hcharged]

theorem declination_pending {now : Time} {a : ProcessPaymentResult}
    (ho : o.status = .paymentPending) (hn : now ≤ r.expiresAt) (hr : r.status = .paymentPending) :
    declination o r now a
      = ⟨.ok a, { o with status := .paymentDeclined }, { r with status := .pending }, []⟩ := by
  simp [declination, Order.markPaymentDeclined, Reservation.revertPaymentDecline, ho, hn, hr]

theorem declination_throws {now : Time} {a : ProcessPaymentResult}
    (ho : o.status = .paymentPending) (hn : now ≤ r.expiresAt) (hr : r.status ≠ .paymentPending) :
    ∃ e, (declination o r now a).result = .error e := by
  simp [declination, Order.markPaymentDeclined, Reservation.revertPaymentDecline, ho, hn, hr]

/-- A payment that goes through confirms an order that can be confirmed and its reservation. -/
theorem paid_payment {p : Payment} {orderId : String}
    (hp : p.Charged orderId r.expiresAt .success) (hissue : p.env.issue = .ok ())
    (hs : o.Confirmable) (hr : r.Open) (hunpaid : o.paidAttempt p.command.idempotencyKey = none) :
    let e := payment p.env p.command o r
    (∃ b, e.result = .ok b) ∧ e.order.status = .confirmed
      ∧ e.reservation = { r with status := .confirmed } := by
  obtain ⟨result, hcharge, hstatus⟩ := hp.charge
  have hne : o.status ≠ .confirmed := by
    rcases hs with h | h | h <;> simp [h]
  have hne' : (o.attempted p.env p.command result).status ≠ .confirmed := by
    rw [Order.attempted_status, Order.retried_status]
    split_ifs
    · simp
    · exact hne
  rcases Reservation.confirm_eq r p.env.checkAt p.env.later with ⟨-, hr'⟩ | ⟨hcan, -⟩
  · simp [payment, hunpaid, hne, hcharge, charged, hstatus, fulfilment, hissue,
      Order.confirm_eq hne', Order.confirmable_attempted.2 hs, hr', Order.confirmedBy]
  · exact absurd ⟨hr, hp.checkAt_le⟩ hcan

/-- A payment run alone, and what it leaves stored. -/
theorem Payment.call_run {p : Payment} {orderId : String} (hp : p.command.orderId = orderId)
    (ho : w.orders.get orderId = some o) (hr : w.reservations.get o.reservationId = some r) :
    ∃ w', p.call.run w = some ((payment p.env p.command o r).result.map .payment, w')
      ∧ w'.orders.get orderId = some (payment p.env p.command o r).order
      ∧ w'.reservations.get (payment p.env p.command o r).order.reservationId
        = some (payment p.env p.command o r).reservation := by
  subst hp
  have hframe := payment_frame p.env p.command o r
  refine ⟨_, run_map _ Reply.payment (processPayment_run p.env ho hr), ?_, ?_⟩
  · rw [← w.orders.get_key ho, ← hframe.id]
    exact Repository.get_save_self _ _
  · rw [hframe.reservationId, ← w.reservations.get_key hr, ← hframe.moves.id]
    exact Repository.get_save_self _ _

/-- The first declined payment after a checkout. -/
theorem first_decline {p : Payment} {orderId : String} {status : ChargeStatus}
    (hp : p.Charged orderId r.expiresAt status) (hd : status = .declined ∨ status = .failed)
    (hs : o.status = .paymentPending) (hr : r.status = .paymentPending)
    (hnone : o.paymentAttempts = []) :
    let e := payment p.env p.command o r
    (∃ b, e.result = .ok b ∧ b.Recoverable) ∧ e.order.status = .paymentDeclined
      ∧ (∃ a, e.order.paymentAttempts = [a] ∧ a.status ≠ .success)
      ∧ e.reservation = { r with status := .pending } := by
  have hunpaid : o.paidAttempt p.command.idempotencyKey = none := by
    simp [Order.paidAttempt, Order.existingAttempt, hnone]
  obtain ⟨result, a, -, hstatus, ha, hres, ho', hr'⟩ :=
    declined_payment (r := r) hp hd (by simp [hs]) hunpaid
  have hpending : (o.attempted p.env p.command result).status = .paymentPending := by
    rw [Order.attempted_status, Order.retried_status, hs]
    simp
  rw [declination_pending hpending hp.checkAt_le hr] at hres ho' hr'
  refine ⟨⟨a, hres, ha⟩, by rw [ho'], ?_, hr'⟩
  rw [ho']
  obtain ⟨a', hattempts, -, hsuccess⟩ := o.attempted_snoc p.env p.command result
  refine ⟨a', by rw [hattempts, hnone, List.nil_append], fun h => ?_⟩
  rw [hsuccess, hstatus] at h
  rcases hd with rfl | rfl <;> simp at h

/-- A declined payment throws where the reservation is PENDING already. -/
theorem next_decline {p : Payment} {orderId : String} {status : ChargeStatus}
    (hp : p.Charged orderId r.expiresAt status) (hd : status = .declined ∨ status = .failed)
    (hs : o.status = .paymentDeclined) (hr : r.status = .pending)
    (hunpaid : o.paidAttempt p.command.idempotencyKey = none) :
    ∃ e, (payment p.env p.command o r).result = .error e := by
  obtain ⟨result, a, -, -, -, hres, -⟩ :=
    declined_payment (r := r) hp hd (by simp [hs]) hunpaid
  have hpending : (o.attempted p.env p.command result).status = .paymentPending := by
    rw [Order.attempted_status, Order.retried_status, hs]
    simp
  rw [hres]
  exact declination_throws hpending hp.checkAt_le (by simp [hr])

/-! ## One decline, and more -/

section Recovery

variable {env : CheckoutEnv} {command : InitiateCheckoutCommand} {p : Payment}
  {status : ChargeStatus}

/-- The checkout and the first decline. -/
theorem checkout_decline (hr : w.reservations.get command.reservationId = some r)
    (hs : r.status = .pending) (hin : env.now ≤ r.expiresAt)
    (hnew : w.orders.get env.orderId.val = none) (hd : status = .declined ∨ status = .failed)
    (hp : p.Charged env.orderId.val r.expiresAt status) :
    ∃ o₁ w₁ o₂ w₂ b, (Call.initiateCheckout env command).run w = some (.ok (.order o₁), w₁)
      ∧ o₁.id = env.orderId.val ∧ p.call.run w₁ = some (.ok (.payment b), w₂) ∧ b.Recoverable
      ∧ w₂.orders.get env.orderId.val = some o₂
      ∧ w₂.reservations.get o₂.reservationId = some { r with status := .pending }
      ∧ o₂.status = .paymentDeclined ∧ o₂.paymentAttempts.length = 1
      ∧ ∀ key, o₂.paidAttempt key = none := by
  have hcheckout := run_map _ Reply.order (checkout_run hr hs hin hnew)
  set o₁ := Order.ofReservation env.orderId r command.totalAmount with ho₁
  set w₁ := (w.saveReservation { r with status := .paymentPending }).saveOrder o₁ with hw₁
  have hget₁ : w₁.orders.get env.orderId.val = some o₁ := Repository.get_save_self _ o₁
  have hhold₁ : w₁.reservations.get o₁.reservationId = some { r with status := .paymentPending } :=
    Repository.get_save_self w.reservations _
  obtain ⟨w₂, hrun₂, hget₂, hhold₂⟩ := p.call_run hp.order hget₁ hhold₁
  obtain ⟨⟨b, hb, hrec⟩, hs₂, ⟨a, ha, hne⟩, hr₂⟩ :=
    first_decline (r := { r with status := .paymentPending }) hp hd rfl rfl
      (show o₁.paymentAttempts = [] from rfl)
  rw [hb] at hrun₂
  rw [hr₂] at hhold₂
  refine ⟨o₁, w₁, _, w₂, b, hcheckout, rfl, hrun₂, hrec, hget₂, hhold₂, hs₂, by rw [ha]; rfl, ?_⟩
  intro key
  simp only [Order.paidAttempt, Order.existingAttempt, ha, List.find?_singleton]
  split_ifs <;> simp [hne]

/-- The reservation is PENDING when the second one is declined. -/
theorem not_recovers_two (hr : w.reservations.get command.reservationId = some r)
    (hs : r.status = .pending) (hin : env.now ≤ r.expiresAt)
    (hnew : w.orders.get env.orderId.val = none) (hd : status = .declined ∨ status = .failed)
    (hp : p.Charged env.orderId.val r.expiresAt status) {q : Payment} {status' : ChargeStatus}
    (hd' : status' = .declined ∨ status' = .failed)
    (hq : q.Charged env.orderId.val r.expiresAt status') (rest : List Payment) (last : Payment) :
    ¬ Recovers w env command (p :: q :: rest) last := by
  obtain ⟨o₁, w₁, o₂, w₂, b, hcheckout, -, hrun₂, -, hget₂, hhold₂, hs₂, -, hunpaid⟩ :=
    checkout_decline hr hs hin hnew hd hp
  rintro ⟨o, w₁', w', w₃, b₃, hc, ⟨b₁, w₂', hrun, -, -, -, b₂, w₃', hrun', -⟩, -⟩
  rw [hcheckout] at hc
  simp only [Option.some.injEq, Prod.mk.injEq] at hc
  obtain ⟨-, rfl⟩ := hc
  rw [hrun₂] at hrun
  simp only [Option.some.injEq, Prod.mk.injEq] at hrun
  obtain ⟨-, rfl⟩ := hrun
  obtain ⟨w₄, hrun₄, -⟩ := q.call_run hq.order hget₂ hhold₂
  obtain ⟨e, he⟩ := next_decline (r := { r with status := .pending }) hq hd' hs₂ rfl (hunpaid _)
  rw [hrun', he] at hrun₄
  simp [Except.map] at hrun₄

/-- After a checkout in time, any number of payments (at least one) that the gateway declines, and
one that goes through: the declines are recovered from if and only if there is just one. -/
theorem recovers_iff_one (hr : w.reservations.get command.reservationId = some r)
    (hs : r.status = .pending) (hin : env.now ≤ r.expiresAt)
    (hnew : w.orders.get env.orderId.val = none) {declines : List Payment} {last : Payment}
    (hsome : declines ≠ [])
    (hdeclined : ∀ p ∈ declines, ∃ status, (status = .declined ∨ status = .failed)
      ∧ p.Charged env.orderId.val r.expiresAt status)
    (hlast : last.Charged env.orderId.val r.expiresAt .success)
    (hissue : last.env.issue = .ok ()) :
    Recovers w env command declines last ↔ declines.length = 1 := by
  obtain ⟨p, rest, rfl⟩ := List.exists_cons_of_ne_nil hsome
  obtain ⟨status, hd, hp⟩ := hdeclined p (List.mem_cons_self ..)
  rcases rest with _ | ⟨q, rest⟩
  · refine iff_of_true ?_ rfl
    obtain ⟨o₁, w₁, o₂, w₂, b, hcheckout, hid, hrun₂, hrec, hget₂, hhold₂, hs₂, hlen, hunpaid⟩ :=
      checkout_decline hr hs hin hnew hd hp
    obtain ⟨w₃, hrun₃, hget₃, hhold₃⟩ := last.call_run hlast.order hget₂ hhold₂
    obtain ⟨⟨b₃, hb₃⟩, hs₃, hr₃⟩ := paid_payment (r := { r with status := .pending }) hlast hissue
      (.inr (.inr hs₂)) (.inl rfl) (hunpaid _)
    rw [hb₃] at hrun₃
    rw [hr₃] at hhold₃
    rw [← hid] at hget₂ hget₃
    exact ⟨o₁, w₁, w₂, w₃, b₃, hcheckout, ⟨b, w₂, hrun₂, hrec.1, hrec.2.1, hrec.2.2, rfl⟩,
      ⟨_, _, hget₂, hhold₂, hs₂, hlen, rfl⟩, hrun₃, ⟨_, _, hget₃, hhold₃, hs₃, rfl⟩⟩
  · obtain ⟨status', hd', hq⟩ := hdeclined q (by simp)
    exact iff_of_false (not_recovers_two hr hs hin hnew hd hp hd' hq rest last) (by simp)

end Recovery

/-- A payment of the order at this time, with the gateway's answer. -/
def cardAt (now : Time) (key : String) (status : ChargeStatus) : Payment :=
  ⟨⟨"payment", .ok ⟨status, some "t1", none⟩, .ok (), now, now, now, now, refundAt now⟩,
    ⟨"a", "card", key, none⟩⟩

theorem cardAt_charged (now : Time) (key : String) (status : ChargeStatus) (h : now ≤ 600000) :
    (cardAt now key status).Charged "a" heldSeat.expiresAt status :=
  ⟨rfl, ⟨_, rfl, rfl⟩, by simpa [cardAt, Payment.call, Call.readings, refundAt, heldSeat] using h⟩

def firstCheckout : CheckoutEnv := ⟨1, 1, orderA⟩

def seatCommand : InitiateCheckoutCommand := ⟨"r1", ⟨5000, "USD"⟩⟩

/-- One card is declined, the next goes through. -/
theorem recovers_secondCard :
    Recovers heldWorld firstCheckout seatCommand [cardAt 2 "k1" .declined] (cardAt 3 "k2" .success) := by
  refine (recovers_iff_one (r := heldSeat) rfl rfl (by decide) rfl (by simp) ?_
    (cardAt_charged 3 "k2" .success (by decide)) rfl).2 rfl
  simp only [List.mem_singleton, forall_eq]
  exact ⟨.declined, .inl rfl, cardAt_charged 2 "k1" .declined (by decide)⟩

/-- Two cards are declined, under different keys and well before the deadline: the second decline
is not recovered from. -/
theorem second_decline_throws :
    heldWorld.reservations.get seatCommand.reservationId = some heldSeat
      ∧ heldSeat.status = .pending
      ∧ (∀ p ∈ [cardAt 2 "k1" .declined, cardAt 3 "k2" .declined],
        p.Charged "a" heldSeat.expiresAt .declined)
      ∧ (cardAt 4 "k3" .success).Charged "a" heldSeat.expiresAt .success
      ∧ ¬ Recovers heldWorld firstCheckout seatCommand
        [cardAt 2 "k1" .declined, cardAt 3 "k2" .declined] (cardAt 4 "k3" .success) := by
  have hcards : ∀ p ∈ [cardAt 2 "k1" .declined, cardAt 3 "k2" .declined],
      p.Charged "a" heldSeat.expiresAt .declined := by
    simp only [List.mem_cons, List.not_mem_nil, or_false, forall_eq_or_imp, forall_eq]
    exact ⟨cardAt_charged 2 "k1" .declined (by decide), cardAt_charged 3 "k2" .declined (by decide)⟩
  refine ⟨rfl, rfl, hcards, cardAt_charged 4 "k3" .success (by decide), ?_⟩
  exact not_recovers_two (r := heldSeat) rfl rfl (by decide) rfl (.inl rfl) (hcards _ (by simp))
    (.inl rfl) (hcards _ (by simp)) [] _

end LaunchPad
