import LaunchPad.Settlement
import LaunchPad.Proofs.Confirmation

/-!
# Refunds

What a call asks the gateway to refund (`Call.effect_refunds`): at most one transaction, the one
`Call.refunds` says, under the key of the order's next attempt. From it follow when a refunded order
stays refunded (`cancelledRefunded_final_iff`), and which runs refund a transaction at most once
against a gateway that may have executed what it did not answer SUCCESS (`refunds_once_iff`).
-/

namespace LaunchPad

open Interleave Rows

variable {w w' : World} {o : Order} {r : Reservation} {c : Call}

/-! ## What a call asks for -/

theorem refundRequests_append (l l' : List PortEvent) :
    refundRequests (l ++ l') = refundRequests l ++ refundRequests l' := List.filterMap_append

theorem mem_refundRequests {log : List PortEvent} {q : RefundRequest} :
    q ∈ refundRequests log ↔ .refundRequested q ∈ log := by
  unfold refundRequests
  rw [List.mem_filterMap]
  constructor
  · rintro ⟨e, he, hq⟩
    cases e <;> simp at hq
    exact hq ▸ he
  · exact fun h => ⟨_, h, rfl⟩

def PortEvent.IsRefund : PortEvent → Prop
  | .refundRequested _ => True
  | .refundAnswered _ _ => True
  | _ => False

/-- The traffic of a call that asks for the refund of `t`, if it does, for the order `o`, and leaves
the order `o'`. -/
inductive RefundTraffic (o o' : Order) : Option String → List PortEvent → Prop
  | none (h : o'.compensationAttempts = o.compensationAttempts) : RefundTraffic o o' none []
  | thrown (q : RefundRequest) (hid : q.orderId = o.id)
      (hkey : q.idempotencyKey = refundIdempotencyKey o)
      (h : o'.compensationAttempts = o.compensationAttempts) :
      RefundTraffic o o' (some q.transactionId) [.refundRequested q]
  | answered (q : RefundRequest) (result : RefundResult) (hid : q.orderId = o.id)
      (hkey : q.idempotencyKey = refundIdempotencyKey o)
      (h : o'.compensationAttempts.length = o.compensationAttempts.length + 1) :
      RefundTraffic o o' (some q.transactionId) [.refundRequested q, .refundAnswered q result]

theorem Order.settled_attempts (o : Order) (env : CompensationEnv) (res : RefundResult) :
    (o.settled env res).compensationAttempts.length = o.compensationAttempts.length + 1 := by
  rcases res with ⟨_ | _ | _, t, m⟩ <;> simp [settled, recordCompensationAttempt, markCompensated,
    markCompensationPending]

theorem compensation_refunds (env : CompensationEnv) (x : Option String)
    (reason : CompensationReason) (o : Order) (r : Reservation) :
    let e := compensation env x reason o r
    RefundTraffic o e.order
      (if o.status = .cancelledRefunded ∨ r.status = .confirmed then none else o.refundTarget x)
      e.events := by
  rcases compensation_cases env x reason o r with ⟨ho, -, hev, hs⟩ | ⟨r', hrel, -, hs, h⟩
  · simp only []
    rw [ho, hev, if_pos hs]
    exact .none rfl
  have hr : r.status ≠ .confirmed := fun hr => Reservation.not_released hr hrel
  simp only []
  rw [if_neg (not_or.2 ⟨hs, hr⟩)]
  rcases h with ⟨ht, hev, ⟨-, ho⟩ | ⟨-, ho⟩⟩ | ⟨t, ht, ⟨-, ho, hev⟩ | ⟨res, -, ho, hev⟩⟩
  · rw [ht, hev, ho]
    exact .none rfl
  · rw [ht, hev, ho]
    exact .none rfl
  · rw [ht, hev, ho]
    exact .thrown (refundRequest env reason o t) rfl rfl rfl
  · rw [ht, hev, ho]
    exact .answered (refundRequest env reason o t) res rfl rfl (o.settled_attempts env res)

theorem RefundTraffic.of_same {o₁ o' : Order} {t : Option String} {ev : List PortEvent}
    (h : RefundTraffic o₁ o' t ev) (hid : o₁.id = o.id)
    (hat : o₁.compensationAttempts = o.compensationAttempts) : RefundTraffic o o' t ev := by
  have hkey : refundIdempotencyKey o₁ = refundIdempotencyKey o := by
    unfold refundIdempotencyKey
    rw [hid, hat]
  cases h with
  | none h => exact .none (h.trans hat)
  | thrown q h1 h2 h3 => exact .thrown q (h1.trans hid) (h2.trans hkey) (h3.trans hat)
  | answered q res h1 h2 h3 =>
    exact .answered q res (h1.trans hid) (h2.trans hkey) (by rw [h3, hat])

theorem Order.attempted_compensationAttempts (o : Order) (env : PaymentEnv)
    (command : ProcessPaymentCommand) (result : ChargeResult) :
    (o.attempted env command result).compensationAttempts = o.compensationAttempts := by
  have h : o.retried.compensationAttempts = o.compensationAttempts := by
    unfold retried
    split_ifs <;> rfl
  rcases result with ⟨_ | _ | _ | _, t, m⟩ <;> exact h

theorem Order.attempted_providerTransactionId (o : Order) (env : PaymentEnv)
    (command : ProcessPaymentCommand) (result : ChargeResult) :
    (o.attempted env command result).providerTransactionId = o.providerTransactionId := by
  have h : o.retried.providerTransactionId = o.providerTransactionId := by
    unfold retried
    split_ifs <;> rfl
  rcases result with ⟨_ | _ | _ | _, t, m⟩ <;> exact h

/-- The attempt just made adds no transaction but its own. -/
theorem Order.attempted_target (env : PaymentEnv) (command : ProcessPaymentCommand)
    {result : ChargeResult} (h : result.status = .success) (y : Option String) :
    (truthy result.transactionId).or
        (y.or (truthy (o.attempted env command result).successTransactionId))
      = (truthy result.transactionId).or (y.or (truthy o.successTransactionId)) := by
  rcases o.attempted_successTransactionId env command h with ⟨-, ho, ha⟩ | ⟨-, ha⟩
  · rw [ha, ho]
    rcases truthy result.transactionId with _ | t
    · rfl
    · simp
  · rw [ha]

/-- What follows a charge that went through, recorded in `o`. -/
theorem fulfilment_refunds (env : PaymentEnv) (result : ChargeResult) (r : Reservation)
    (hs : o.status ≠ .confirmed) :
    let e := fulfilment env result o r
    ∃ pre post, e.events = pre ++ post ∧ (∀ ev ∈ pre, ¬ ev.IsRefund)
      ∧ RefundTraffic o e.order
        (if o.status = .cancelledRefunded ∨ r.status = .confirmed
            ∨ env.issue = .ok () ∧ o.Confirmable ∧ r.CanConfirm env.checkAt then none
          else (truthy result.transactionId).or
            ((if env.issue = .ok () ∧ o.Confirmable then none else truthy o.providerTransactionId).or
              (truthy o.successTransactionId))) post := by
  rcases fulfilment_cases env result r hs with ⟨hiss, hcon, hcan, ho, -, hev⟩ |
    ⟨o₁, cause, pre, hpre, ho₁, ho, -, hev⟩
  · refine ⟨[.ticketIssued o.id], [], hev, by simp [PortEvent.IsRefund], ?_⟩
    rw [if_pos (.inr (.inr ⟨hiss, hcon, hcan⟩)), ho]
    exact .none rfl
  refine ⟨pre, _, hev, fun ev hmem => by simp [hpre ev hmem, PortEvent.IsRefund], ?_⟩
  rw [ho]
  have htraffic := compensation_refunds env.compensation result.transactionId
    (.fulfillment cause) o₁ r
  rcases ho₁ with ⟨rfl, hno⟩ | ⟨rfl, hiss, hcon, hcan⟩
  · have hcond : (o₁.status = .cancelledRefunded ∨ r.status = .confirmed
        ∨ env.issue = .ok () ∧ o₁.Confirmable ∧ r.CanConfirm env.checkAt)
        ↔ o₁.status = .cancelledRefunded ∨ r.status = .confirmed :=
      ⟨fun h => h.imp_right fun h => h.resolve_right fun h => hno ⟨h.1, h.2.1⟩,
        fun h => h.imp_right .inl⟩
    simp only [hcond, if_neg hno]
    exact htraffic
  · have hcr : o.status ≠ .cancelledRefunded := by
      rcases hcon with h | h | h <;> simp [h]
    have htarget : (o.confirmedBy result.transactionId env.confirmAt).refundTarget
        result.transactionId = (truthy result.transactionId).or
          (truthy o.successTransactionId) := by
      unfold Order.refundTarget
      change (truthy result.transactionId).or ((truthy result.transactionId).or
        (truthy o.successTransactionId)) = _
      rcases truthy result.transactionId <;> rfl
    rw [htarget] at htraffic
    simp only [hcr, hcan, hiss, hcon, and_false, or_false, false_or, true_and, if_true,
      Option.none_or]
    have hstatus :
        (o.confirmedBy result.transactionId env.confirmAt).status ≠ .cancelledRefunded := by
      simp [Order.confirmedBy]
    simp only [hstatus, false_or] at htraffic
    exact htraffic.of_same (o := o) rfl rfl

/-- The traffic of a call, up to what it asks the gateway to refund, and from there. -/
theorem payment_refunds (env : PaymentEnv) (command : ProcessPaymentCommand) (o : Order)
    (r : Reservation) :
    let e := payment env command o r
    ∃ pre post, e.events = pre ++ post ∧ (∀ ev ∈ pre, ¬ ev.IsRefund)
      ∧ RefundTraffic o e.order ((Call.processPayment env command).refunds o r) post := by
  simp only [Call.refunds]
  rcases payment_cases env command o r with ⟨ho, -, hev, hs⟩ | ⟨hpaid, hs, ⟨⟨e, he⟩, ho, -, hev⟩ |
    ⟨result, hch, ho, -, hev⟩⟩
  · refine ⟨[], [], hev, by simp, ?_⟩
    have hnone : (Call.processPayment env command).refunds o r = none := by
      simp only [Call.refunds]
      rcases env.charge with e | result
      · rfl
      · rcases hs with hs | hs <;> simp [hs]
    simp only [Call.refunds] at hnone
    rw [ho, hnone]
    exact .none rfl
  · refine ⟨_, [], by rw [hev, List.append_nil], by simp [PortEvent.IsRefund], ?_⟩
    rw [ho, he]
    refine .none ?_
    unfold Order.retried
    split_ifs <;> rfl
  rw [ho, hch, hev]
  have hat := o.attempted_compensationAttempts env command result
  by_cases hres : result.status = .success
  swap
  · obtain ⟨hnone, -, -, ho'⟩ := charged_unpaid env command o r hres
    refine ⟨_, [], by rw [hnone, List.append_nil], by simp [PortEvent.IsRefund], ?_⟩
    simp only [hres, ne_eq, not_false_eq_true, true_or, if_true]
    rcases ho' with ho' | ⟨-, ho'⟩ <;> rw [ho'] <;> exact .none hat
  have hs' := retried_ne_confirmed hs env command result
  obtain ⟨pre, post, hpost, hpre, htraffic⟩ := fulfilment_refunds env result r hs'
  refine ⟨.chargeRequested (chargeRequest env command o) :: .chargeAnswered
    (chargeRequest env command o) result :: .ticketRequested o.id :: pre, post, ?_, ?_, ?_⟩
  · simp [charged, hres, hpost]
  · simpa [PortEvent.IsRefund] using hpre
  · have hcr : (o.attempted env command result).status = .cancelledRefunded
        ↔ o.status = .cancelledRefunded := by
      rw [o.attempted_status, o.retried_status]
      split_ifs with h <;> simp [h]
    simp only [o.attempted_target env command hres, Order.confirmable_attempted, hcr,
      o.attempted_providerTransactionId env command] at htraffic
    simp only [charged, hres, ne_eq, not_true_eq_false, hpaid, hs, false_or]
    exact htraffic.of_same (o.attempted_id env command result) hat

theorem Call.effect_refunds (c : Call) (w : World) (o : Order) (r : Reservation) :
    let e := c.effect w o r
    ∃ pre post, e.events = pre ++ post ∧ (∀ ev ∈ pre, ¬ ev.IsRefund)
      ∧ RefundTraffic o e.order (c.refunds o r) post := by
  cases c with
  | initiateCheckout => exact ⟨[], [], rfl, by simp, .none rfl⟩
  | expire => exact ⟨[], [], rfl, by simp, .none rfl⟩
  | processPayment env command => exact payment_refunds env command o r
  | handlePaymentWebhook env self payload =>
    refine ⟨[], [], ?_, by simp, .none ?_⟩ <;> simp only [effect, Effect.map, webhook] <;>
      split_ifs with hseen hs <;> try rfl
    · exact (callback_cases env payload r hs).1
    · obtain ⟨-, ⟨-, -, -, ho | ⟨-, ho⟩⟩ | ⟨-, -, ho, -⟩ | ⟨-, -, -, ho, -⟩ | ⟨-, -, -, ho, -⟩⟩ :=
        callback_cases env payload r hs <;> rw [ho] <;> rfl
  | compensateOrder env orderId x reason =>
    exact ⟨[], _, rfl, by simp, compensation_refunds env x reason o r⟩
  | retryCompensation env orderId =>
    simp only [effect, refunds]
    by_cases hs : o.status = .compensationPending
    · have htraffic := compensation_refunds env none .retry o r
      simp only [hs, reduceCtorEq, false_or] at htraffic
      refine ⟨[], _, rfl, by simp, ?_⟩
      simpa [hs, Effect.map] using htraffic
    · refine ⟨[], [], by simp [hs], by simp, ?_⟩
      simp only [hs, ne_eq, not_false_eq_true, if_true, true_or]
      exact .none rfl

/-! ## A refunded order -/

theorem compensation_closed (env : CompensationEnv) (x : Option String)
    (reason : CompensationReason) (r : Reservation) (hs : o.status = .cancelledRefunded) :
    (compensation env x reason o r).order = o := by
  rcases compensation_cases env x reason o r with ⟨ho, -⟩ | ⟨r', -, -, hs', -⟩
  · exact ho
  · exact absurd hs hs'

/-- A payment of a refunded order leaves it refunded. -/
theorem payment_closed (env : PaymentEnv) (command : ProcessPaymentCommand) (r : Reservation)
    (hs : o.status = .cancelledRefunded) :
    (payment env command o r).order.status = .cancelledRefunded
      ∧ (payment env command o r).order.refundTransactionId = o.refundTransactionId := by
  have hret : o.retried = o := by simp [Order.retried, hs]
  rcases payment_cases env command o r with ⟨ho, -⟩ | ⟨-, hne, ⟨-, ho, -⟩ | ⟨result, -, ho, -⟩⟩
  · rw [ho]
    exact ⟨hs, rfl⟩
  · rw [ho, hret]
    exact ⟨hs, rfl⟩
  have hat : (o.attempted env command result).status = .cancelledRefunded
      ∧ (o.attempted env command result).refundTransactionId = o.refundTransactionId := by
    rcases result with ⟨_ | _ | _ | _, t, m⟩ <;>
      simp [Order.attempted, Order.recordPaymentAttempt, hret, hs]
  have hsame : (payment env command o r).order = o.attempted env command result := by
    rw [ho]
    by_cases hres : result.status = .success
    · have hne' := retried_ne_confirmed hne env command result
      rw [charged, hres]
      rcases fulfilment_cases env result r hne' with ⟨-, hcon, -⟩ | ⟨o₁, cause, -, -, ho₁, ho', -⟩
      · rcases hcon with h | h | h <;> simp [hat.1] at h
      · simp only [ho']
        rcases ho₁ with ⟨rfl, -⟩ | ⟨-, -, hcon, -⟩
        · exact compensation_closed _ _ _ r hat.1
        · rcases hcon with h | h | h <;> simp [hat.1] at h
    · obtain ⟨-, -, -, ho' | ⟨hp, -⟩⟩ := charged_unpaid env command o r hres
      · exact ho'
      · simp [hat.1] at hp
  rw [hsame]
  exact hat

/-- A call leaves a refunded order refunded, unless it is a callback that comes late for it. -/
theorem Call.effect_closed (c : Call) (w : World) (r : Reservation)
    (hs : o.status = .cancelledRefunded) :
    ((c.effect w o r).order.status = .cancelledRefunded
        ∧ (c.effect w o r).order.refundTransactionId = o.refundTransactionId)
      ↔ ¬ c.ComesLate w o r := by
  have hc : o.status ≠ .confirmed := by simp [hs]
  cases c with
  | initiateCheckout => exact iff_of_true ⟨hs, rfl⟩ id
  | expire => exact iff_of_true ⟨hs, rfl⟩ id
  | processPayment env command => exact iff_of_true (payment_closed env command r hs) id
  | compensateOrder env orderId x reason =>
    refine iff_of_true ?_ id
    simp only [effect, Effect.map, compensation_closed env x reason r hs]
    exact ⟨hs, trivial⟩
  | retryCompensation env orderId =>
    refine iff_of_true ?_ id
    simp [effect, hs]
  | handlePaymentWebhook env self payload =>
    simp only [effect, Effect.map, webhook, ComesLate, if_neg hc]
    split_ifs with hseen
    · simp [hseen, hs]
    obtain ⟨-, ⟨hp, -, -, ho⟩ | ⟨hp, he, ho, -⟩ | ⟨hp, he, -, ho, -⟩ | ⟨-, -, hcon, -⟩⟩ :=
      callback_cases env payload r hc
    · rcases ho with ho | ⟨hs', -⟩
      · simp [ho, hs, hp]
      · simp [hs] at hs'
    · simp [ho, Order.markRefundRequired, hp, he, hseen]
    · simp [ho, hs, he]
    · rcases hcon with h | h | h <;> simp [hs] at h

/-! ### Requests in the log -/

/-- What holds at every place of a list holds at those of its first part, and of its second. -/
theorem forall_split_append {α : Type} {l ev : List α} {F : List α → α → Prop} :
    (∀ m a m', l ++ ev = m ++ a :: m' → F m a)
      ↔ (∀ m a m', l = m ++ a :: m' → F m a) ∧ ∀ m a m', ev = m ++ a :: m' → F (l ++ m) a := by
  constructor
  · refine fun h => ⟨fun m a m' hl => h m a (m' ++ ev) ?_, fun m a m' hev => h (l ++ m) a m' ?_⟩
    · rw [hl, List.append_assoc, List.cons_append]
    · rw [hev, List.append_assoc]
  · rintro ⟨h1, h2⟩ m a m' heq
    rcases List.append_eq_append_iff.1 heq with ⟨n, rfl, hev⟩ | ⟨n, hl, hn⟩
    · exact h2 n a m' hev
    · rcases n with _ | ⟨b, n⟩
      · rw [List.nil_append] at hn
        rw [List.append_nil] at hl
        have := h2 [] a m' hn.symm
        rwa [List.append_nil, hl] at this
      · simp only [List.cons_append, List.cons.injEq] at hn
        exact h1 m a n (by rw [hl, hn.1])

/-- What holds at every request of a list that has but one, at its head, holds there. -/
theorem forall_split_request {q : RefundRequest} {rest : List PortEvent}
    (hrest : ∀ q', .refundRequested q' ∉ rest) {F : List PortEvent → RefundRequest → Prop} :
    (∀ m a m', .refundRequested q :: rest = m ++ a :: m' → ∀ q', a = .refundRequested q' → F m q')
      ↔ F [] q := by
  constructor
  · exact fun h => h [] _ rest rfl q rfl
  · rintro h m a m' heq q' rfl
    rcases m with _ | ⟨b, m⟩
    · simp only [List.nil_append, List.cons.injEq, PortEvent.refundRequested.injEq] at heq
      exact heq.1 ▸ h
    · simp only [List.cons_append, List.cons.injEq] at heq
      exact absurd (by simp [heq.2]) (hrest q')

/-- At the one refund a call asks for. -/
theorem traffic_requests {o' : Order} {t : Option String} {pre post : List PortEvent}
    (hpre : ∀ ev ∈ pre, ¬ ev.IsRefund) (h : RefundTraffic o o' t post)
    {F : List PortEvent → String → Prop} :
    (∀ m a m', pre ++ post = m ++ a :: m' → ∀ q, a = .refundRequested q → F m q.transactionId)
      ↔ ∀ x, t = some x → F pre x := by
  have hnot : ∀ m a m', pre = m ++ a :: m' → ∀ q, a = PortEvent.refundRequested q →
      F m q.transactionId := by
    rintro m a m' rfl q rfl
    exact absurd trivial (hpre (.refundRequested q) (by simp))
  rw [forall_split_append, and_iff_right hnot]
  cases h with
  | none => simp
  | thrown q =>
    rw [forall_split_request (F := fun m q => F (pre ++ m) q.transactionId) (by simp)]
    simp
  | answered q res =>
    rw [forall_split_request (F := fun m q => F (pre ++ m) q.transactionId) (by simp)]
    simp

theorem refundedFor_append {l pre : List PortEvent} {id t : String}
    (hpre : ∀ ev ∈ pre, ¬ ev.IsRefund) : RefundedFor (l ++ pre) id t ↔ RefundedFor l id t := by
  constructor
  · rintro ⟨q, res, hmem, h⟩
    rcases List.mem_append.1 hmem with hmem | hmem
    · exact ⟨q, res, hmem, h⟩
    · exact absurd trivial (hpre _ hmem)
  · rintro ⟨q, res, hmem, h⟩
    exact ⟨q, res, List.mem_append_left _ hmem, h⟩

/-- `World.ClosedSince`, with the requests at every place of the log. -/
theorem closedSince_iff {log : List PortEvent} {id : String} {x : Option String} :
    w.ClosedSince log id x ↔ (∃ o, w.orders.get id = some o ∧ o.status = .cancelledRefunded
        ∧ o.refundTransactionId = x)
      ∧ ∀ m a m', w.log = m ++ a :: m' → ∀ q, a = .refundRequested q →
        log.length ≤ m.length → ¬ RefundedFor m id q.transactionId := by
  unfold World.ClosedSince
  refine and_congr_right fun _ => ⟨?_, fun h m q m' hlog => h m _ m' hlog q rfl⟩
  rintro h m a m' hlog q rfl
  exact h m q m' hlog

/-- A call asks for no refund a second time, in the log it leaves, just if it does not with its own. -/
theorem Leaves.asked_iff {log : List PortEvent} {id : String} (hw' : Leaves w (c.effect w o r) w')
    (hlog : log.length ≤ w.log.length)
    (hreq : ∀ m a m', w.log = m ++ a :: m' → ∀ q, a = .refundRequested q →
      log.length ≤ m.length → ¬ RefundedFor m id q.transactionId) :
    (∀ m a m', w'.log = m ++ a :: m' → ∀ q, a = .refundRequested q →
      log.length ≤ m.length → ¬ RefundedFor m id q.transactionId)
      ↔ ∀ t, c.refunds o r = some t → ¬ RefundedFor w.log id t := by
  obtain ⟨pre, post, hev, hpre, htraffic⟩ := c.effect_refunds w o r
  rw [hw'.log, hev, forall_split_append, and_iff_right hreq, traffic_requests hpre htraffic
    (F := fun m t => log.length ≤ (w.log ++ m).length → ¬ RefundedFor (w.log ++ m) id t)]
  refine forall₂_congr fun t _ => ?_
  rw [refundedFor_append hpre]
  exact ⟨fun h => h (by simp; omega), fun h _ => h⟩

/-- A refunded order stays so just if the call is no callback that comes late for it. -/
theorem Leaves.closed_iff {id id' : String} {x : Option String} {o' : Order}
    (hw' : Leaves w (c.effect w o' r) w') (ho' : w.orders.get id' = some o')
    (ho : w.orders.get id = some o) (hs : o.status = .cancelledRefunded)
    (hx : o.refundTransactionId = x) :
    (∃ o₁, w'.orders.get id = some o₁ ∧ o₁.status = .cancelledRefunded
      ∧ o₁.refundTransactionId = x) ↔ ¬ (id' = id ∧ c.ComesLate w o' r) := by
  have hf := c.effect_frame w o' r
  have hoid' : o'.id = id' := w.orders.get_key ho'
  by_cases hne : id' = id
  · subst hne
    obtain rfl := Option.some.inj (ho.symm.trans ho')
    have hget : w'.orders.get id' = some (c.effect w o r).order := by
      rw [hw'.orders, Repository.get_save, hf.id, hoid', if_pos rfl]
    simp only [hget, Option.some.injEq, exists_eq_left', true_and, ← hx]
    exact c.effect_closed w r hs
  · have hget : w'.orders.get id = some o := by
      rw [hw'.orders, Repository.get_save_of_ne (by rw [hf.id, hoid']; exact Ne.symm hne), ho]
    exact iff_of_true ⟨o, hget, hs, hx⟩ fun h => hne h.1

/-- A call keeps a refunded order as it is unless it reopens it. -/
theorem closedSince_step {log : List PortEvent} {id : String} {x : Option String} (hl : w.Linked)
    {reply : Except WorkflowError Reply} (h : c.run w = some (reply, w'))
    (hlog : log.length ≤ w.log.length) (hP : w.ClosedSince log id x) :
    w'.ClosedSince log id x ↔ ¬ c.Reopens id w := by
  rw [closedSince_iff] at hP ⊢
  obtain ⟨⟨o, ho, hs, hx⟩, hreq⟩ := hP
  rcases Call.cases hl h with ⟨hsame, hnone⟩ | ⟨id', o', r, hid', ho', hr, -, hw'⟩ |
    ⟨uid, r, amount, hid, -, -, hfresh, rfl⟩ | ⟨r, hid, -, -, rfl⟩
  · refine iff_of_true ⟨⟨o, by rw [hsame.orders, ho], hs, hx⟩, by rwa [hsame.log]⟩ ?_
    rintro ⟨id', o', r, hid', ho', -⟩
    simp [hnone id' hid'] at ho'
  · have hown : c.Reopens id w ↔ _ := Call.exists_own_iff hid' ho' hr (P := fun id' o r =>
      id' = id ∧ c.ComesLate w o r ∨ ∃ t, c.refunds o r = some t ∧ RefundedFor w.log id t)
    rw [hw'.asked_iff hlog hreq, hw'.closed_iff ho' ho hs hx, hown]
    push Not
    rfl
  · have hne : id ≠ uid.val := by
      rintro rfl
      simp [hfresh] at ho
    refine iff_of_true ⟨⟨o, ?_, hs, hx⟩, hreq⟩ fun ⟨id', o', r, hid', _⟩ => by simp [hid] at hid'
    rw [← ho]
    exact Repository.get_save_of_ne (a := Order.ofReservation uid r amount) hne
  · exact iff_of_true ⟨⟨o, ho, hs, hx⟩, hreq⟩ fun ⟨id', o', r, hid', _⟩ => by simp [hid] at hid'

theorem Call.log_length_le (hl : w.Linked) {reply : Except WorkflowError Reply}
    (h : c.run w = some (reply, w')) : w.log.length ≤ w'.log.length := by
  rcases Call.cases hl h with ⟨hsame, -⟩ | ⟨id', o', r, -, -, -, -, hw'⟩ |
    ⟨uid, r, amount, -, -, -, -, rfl⟩ | ⟨r, -, -, -, rfl⟩
  · rw [hsame.log]
  · rw [hw'.log]
    simp
  · exact le_refl w.log.length
  · exact le_refl w.log.length

/-- Once an order is CANCELLED_REFUNDED, it stays so with its refund in every continuation of the
run, and no transaction refunded for it is asked to be refunded again, if and only if no call of the
continuation is a new SUCCESS callback that comes too late for the order, nor asks to refund such a
transaction for another order. -/
theorem cancelledRefunded_final_iff {w₀ : World} (h₀ : w₀.Initial) {steps : List Step}
    (h : Run w₀ steps w) {id : String} (ho : w.orders.get id = some o)
    (hs : o.status = .cancelledRefunded) {more : List Step} (h' : Run w more w') :
    ((∀ s ∈ more, s.before.ClosedSince w.log id o.refundTransactionId)
        ∧ w'.ClosedSince w.log id o.refundTransactionId)
      ↔ ∀ s ∈ more, ¬ s.call.Reopens id s.before := by
  have hl : w.Linked := h.linked (linked_of_initial h₀)
  have hnow : w.ClosedSince w.log id o.refundTransactionId := by
    refine ⟨⟨o, ho, hs, rfl⟩, fun m q m' hlog hle => ?_⟩
    rw [hlog, List.length_append, List.length_cons] at hle
    omega
  refine Run.iff_no_bad (I := fun v => v.Linked ∧ w.log.length ≤ v.log.length) (A := fun _ => True)
    (P := fun v => v.ClosedSince w.log id o.refundTransactionId) (B := Call.Reopens id) ?_ ?_ ?_
    ⟨hl, le_refl _⟩ hnow h' fun _ _ => trivial
  · exact fun hi _ hc => ⟨Call.linked hi.1 hc, hi.2.trans (Call.log_length_le hi.1 hc)⟩
  · exact fun hi _ hc hP hok => (closedSince_step hi.1 hc hi.2 hP).2 hok
  · exact fun hi _ hc hP hbad hP' => (closedSince_step hi.1 hc hi.2 hP).1 hP' hbad

/-- A payment whose tickets could not be issued: the charge is refunded. -/
def refundedOrder : List Call :=
  [checkoutAt 1 orderA, .processPayment ⟨"payment", .ok ⟨.success, some "t1", none⟩,
    .error (.external none), 2, 2, 2, 2, refundAt 3⟩ ⟨"a", "card", "k1", none⟩]

theorem refundedOrder_isSome : (runCalls [] heldWorld refundedOrder).isSome := by decide

def refundedWorld : World := ((runCalls [] heldWorld refundedOrder).get refundedOrder_isSome).2

/-- The charge is reported after the reservation has run out. -/
def lateReport : List Call := [paidAt 700000 "evt" "a" "t1"]

theorem lateReport_isSome : (runCalls [] refundedWorld lateReport).isSome := by decide

theorem refundedWorld_order :
    ∃ o, refundedWorld.orders.get "a" = some o ∧ o.status = .cancelledRefunded := by
  have hstatus : (refundedWorld.orders.get "a").map (·.status) = some .cancelledRefunded := by
    decide
  exact Option.map_eq_some_iff.1 hstatus

theorem lateReport_reopened (log : List PortEvent) (x : Option String) :
    ¬ ((runCalls [] refundedWorld lateReport).get lateReport_isSome).2.ClosedSince log "a" x := by
  rintro ⟨⟨o, ho, hs, -⟩, -⟩
  have hstatus : (((runCalls [] refundedWorld lateReport).get lateReport_isSome).2.orders.get
      "a").map (·.status) = some .refundRequired := by decide
  rw [ho] at hstatus
  simp [hs] at hstatus

theorem cancelledRefunded_final_iff_lateReport :
    ∃ steps, Run heldWorld steps refundedWorld ∧ ∃ more w, Run refundedWorld more w
      ∧ ∃ s ∈ more, s.call.Reopens "a" s.before := by
  obtain ⟨hrun, -⟩ := run_runCalls refundedOrder_isSome
  obtain ⟨hmore, -⟩ := run_runCalls lateReport_isSome
  obtain ⟨o, ho, hs⟩ := refundedWorld_order
  refine ⟨_, hrun, _, _, hmore, ?_⟩
  by_contra hno
  have hok := (cancelledRefunded_final_iff heldWorld_initial hrun ho hs hmore).2 fun s hs hbad =>
    hno ⟨s, hs, hbad⟩
  exact lateReport_reopened _ _ hok.2

/-- A callback that carries the refunded transaction takes the order out of CANCELLED_REFUNDED. -/
theorem refunded_order_reopened :
    heldWorld.Initial ∧ ∃ steps w o more w', Run heldWorld steps w ∧ w.orders.get "a" = some o
      ∧ o.status = .cancelledRefunded ∧ Run w more w'
      ∧ (∀ s ∈ more, ∀ env self payload, s.call = .handlePaymentWebhook env self payload →
        payload.orderId = "a" ∧ RefundedFor s.before.log "a" payload.providerTransactionId)
      ∧ ¬ w'.ClosedSince w.log "a" o.refundTransactionId := by
  obtain ⟨hrun, -⟩ := run_runCalls refundedOrder_isSome
  obtain ⟨hmore, -⟩ := run_runCalls lateReport_isSome
  obtain ⟨o, ho, hs⟩ := refundedWorld_order
  refine ⟨heldWorld_initial, _, refundedWorld, o, _, _, hrun, ho, hs, hmore, fun s hmem => ?_,
    lateReport_reopened _ _⟩
  obtain rfl : s = _ := List.mem_singleton.1 hmem
  rintro env self payload hcall
  obtain ⟨-, -, rfl⟩ := Call.handlePaymentWebhook.inj hcall
  refine ⟨rfl, ⟨"refund", "t1", "a", ⟨5000, "USD"⟩, .fulfillment (.external none), "refund_a_1"⟩,
    ⟨.success, some "rf", none⟩, ?_, rfl, rfl, rfl⟩
  change _ ∈ refundedWorld.log
  decide

end LaunchPad
