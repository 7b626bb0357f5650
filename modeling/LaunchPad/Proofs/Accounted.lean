import LaunchPad.Money
import LaunchPad.Proofs.Confirmation

/-!
# Which transactions a call accounts for

An order answers for one transaction (`Order.AnswersFor`). A compensation refunds that one, or
leaves the order answering for it, unless it refunds another (`compensation_keeps_iff`); a charge
that cannot be confirmed becomes the order's one transaction, or is taken back, unless it is
stranded (`payment_strands_iff`). So what an order answers for is kept or refunded by a call that
does not forget it (`Call.effect_keeps_iff`), and what a call captures is taken on by a call that
does not lose it (`Call.effect_takes_iff`).
-/

namespace LaunchPad

open Interleave Rows

variable {w w' : World} {o : Order} {r : Reservation} {c : Call} {t : String}

/-! ## The transaction to refund -/

theorem Order.refundTarget_eq (o : Order) (x : Option String) :
    o.refundTarget x = (truthy x).or (o.refundTarget none) := rfl

theorem Order.refundTarget_ne_empty {x : Option String} (h : o.refundTarget x = some t) :
    t ≠ "" := by
  unfold refundTarget at h
  rcases Option.or_eq_some_iff.1 h with h | ⟨-, h⟩
  · exact truthy_ne_empty h
  · rcases Option.or_eq_some_iff.1 h with h | ⟨-, h⟩ <;> exact truthy_ne_empty h

theorem Order.settled_refundTarget (o : Order) (env : CompensationEnv) (res : RefundResult) :
    (o.settled env res).refundTarget none = o.refundTarget none := by
  unfold settled
  split <;> rfl

theorem Order.retried_refundTarget (o : Order) (x : Option String) :
    o.retried.refundTarget x = o.refundTarget x := by
  unfold retried
  split_ifs <;> rfl

/-- The first successful attempt stays the first. -/
theorem Order.successTransactionId_record {a : PaymentAttempt} {s : String}
    (h : o.successTransactionId = some s) :
    (o.recordPaymentAttempt a).successTransactionId = some s := by
  unfold successTransactionId recordPaymentAttempt at *
  obtain ⟨b, hb, hs⟩ := Option.bind_eq_some_iff.1 h
  simp [List.find?_append, hb, hs]

theorem Order.refundTarget_record {a : PaymentAttempt} (h : o.refundTarget none = some t) :
    (o.recordPaymentAttempt a).refundTarget none = some t := by
  unfold refundTarget at h ⊢
  change (truthy none).or ((truthy o.providerTransactionId).or
    (truthy (o.recordPaymentAttempt a).successTransactionId)) = some t
  rcases hp : truthy o.providerTransactionId with _ | p
  · rw [hp] at h
    have hs : truthy o.successTransactionId = some t := h
    rcases hsucc : o.successTransactionId with _ | s
    · rw [hsucc] at hs
      cases hs
    · rw [successTransactionId_record hsucc, ← hsucc, hs]
      rfl
  · rw [hp] at h
    exact h

theorem Order.attempted_refundTarget (env : PaymentEnv) (command : ProcessPaymentCommand)
    (result : ChargeResult) (h : o.refundTarget none = some t) :
    (o.attempted env command result).refundTarget none = some t := by
  rw [← o.retried_refundTarget] at h
  rcases result with ⟨_ | _ | _ | _, t, m⟩ <;> exact refundTarget_record h

theorem Order.attempted_remembers (env : PaymentEnv) (command : ProcessPaymentCommand)
    {result : ChargeResult} (hres : result.status = .success) (ht : result.transactionId = some t)
    (hne : t ≠ "") :
    (o.attempted env command result).refundTarget none = some t ↔ o.Remembers t := by
  have hp : (o.attempted env command result).providerTransactionId = o.providerTransactionId := by
    have hret : o.retried.providerTransactionId = o.providerTransactionId := by
      unfold retried
      split_ifs <;> rfl
    rcases result with ⟨_ | _ | _ | _, t, m⟩ <;> exact hret
  unfold refundTarget Remembers
  rw [hp]
  rcases truthy o.providerTransactionId with _ | p
  swap
  · change some p = some t ↔ _
    simp
  change truthy (o.attempted env command result).successTransactionId = some t ↔ _
  rcases o.attempted_successTransactionId env command hres with ⟨hno, -, ha⟩ | ⟨⟨a, ha, hs⟩, he⟩
  · rw [ha, ht, truthy_some hne]
    exact iff_of_true rfl (.inr ⟨rfl, .inr hno⟩)
  · have hsome : ¬ ∀ a ∈ o.paymentAttempts, a.status ≠ .success := fun h => h a ha hs
    rw [he]
    simp [hsome]

theorem Order.Unpaid.not_confirmable (h : o.Unpaid) : ¬ o.Confirmable := by
  unfold Confirmable
  rcases h with h | h <;> simp [h]

theorem Order.Unpaid.ne_cancelledRefunded (h : o.Unpaid) : o.status ≠ .cancelledRefunded := by
  rcases h with h | h <;> simp [h]

theorem Order.unpaid_attempted (env : PaymentEnv) (command : ProcessPaymentCommand)
    (result : ChargeResult) : (o.attempted env command result).Unpaid ↔ o.Unpaid := by
  unfold Unpaid
  rw [o.attempted_status, o.retried_status]
  split_ifs with h
  · simp [h]
  · rfl

theorem Order.attempted_cancelledRefunded_iff (o : Order) (env : PaymentEnv)
    (command : ProcessPaymentCommand) (result : ChargeResult) :
    (o.attempted env command result).status = .cancelledRefunded
      ↔ o.status = .cancelledRefunded := by
  rw [o.attempted_status, o.retried_status]
  split_ifs with hd
  · simp [hd]
  · rfl

theorem Order.Owes.attempted (h : o.Owes t) (env : PaymentEnv) (command : ProcessPaymentCommand)
    (result : ChargeResult) : (o.attempted env command result).Owes t :=
  ⟨(unpaid_attempted env command result).2 h.1, attempted_refundTarget env command result h.2⟩

/-- The effect leaves the transaction answered for, or refunds it. -/
def Effect.AccountsFor {α : Type} (e : Effect α) (t : String) : Prop :=
  e.order.AnswersFor e.reservation t ∨ RefundedIn e.events t

/-! ## Compensation -/

theorem released_not_confirmed {r r' : Reservation} (h : r.released = .ok r') :
    r'.status ≠ .confirmed := by
  rcases Reservation.released_cases h with ⟨rfl, h | h⟩ | ⟨-, rfl⟩
  · simp [h]
  · simp [h]
  · simp

/-- A failed refund leaves the order owing what it would refund next. -/
theorem settled_owes_iff (env : CompensationEnv) {res : RefundResult} (hs : res.status ≠ .success) :
    (o.settled env res).Owes t ↔ o.refundTarget none = some t := by
  unfold Order.Owes
  rw [o.settled_refundTarget]
  refine ⟨fun h => h.2, fun h => ⟨.inl ?_, h⟩⟩
  rw [o.settled_status, if_neg hs]

theorem settled_not_confirmed (o : Order) (env : CompensationEnv) (res : RefundResult) :
    (o.settled env res).status ≠ .confirmed := by
  rw [o.settled_status]
  split_ifs <;> simp

theorem settled_refunded {env : CompensationEnv} {res : RefundResult} (hs : res.status = .success) :
    ¬ (o.settled env res).AnswersFor r t := by
  have hst : (o.settled env res).status = .cancelledRefunded := by
    rw [o.settled_status, if_pos hs]
  rintro (⟨hc, -⟩ | ⟨⟨h, -⟩, -⟩)
  · exact absurd hc (settled_not_confirmed o env res)
  · exact h.ne_cancelledRefunded hst

theorem Order.AnswersFor.owes (h : o.AnswersFor r t) (hs : o.status ≠ .confirmed) :
    o.Owes t ∧ r.status ≠ .confirmed := by
  rcases h with ⟨hc, -⟩ | h
  · exact absurd hc hs
  · exact h

theorem refunded_one {q : RefundRequest} {res : RefundResult} :
    RefundedIn [.refundRequested q, .refundAnswered q res] t
      ↔ q.transactionId = t ∧ res.status = .success := by
  constructor
  · rintro ⟨q', res', hmem, ht, hs⟩
    simp only [List.mem_cons, reduceCtorEq, List.not_mem_nil, or_false, false_or,
      PortEvent.refundAnswered.injEq] at hmem
    obtain ⟨rfl, rfl⟩ := hmem
    exact ⟨ht, hs⟩
  · rintro ⟨ht, hs⟩
    exact ⟨q, res, by simp, ht, hs⟩

/-- A compensation leaves an order that was not CONFIRMED so. -/
theorem compensation_not_confirmed {env : CompensationEnv} {x : Option String}
    {reason : CompensationReason} (hs : o.status ≠ .confirmed) :
    (compensation env x reason o r).order.status ≠ .confirmed := by
  rcases compensation_cases env x reason o r with
    ⟨ho, -⟩ | ⟨r', -, -, -, ⟨-, -, ⟨-, ho⟩ | ⟨-, ho⟩⟩ | ⟨t', -, ⟨-, ho, -⟩ | ⟨res, -, ho, -⟩⟩⟩ <;>
    rw [ho]
  · exact hs
  · exact hs
  · simp
  · exact hs
  · exact settled_not_confirmed o env res

/-- A compensation refunds the transaction it chose, if the refund goes through. -/
theorem compensation_refunded {env : CompensationEnv} {x : Option String}
    {reason : CompensationReason} (h : RefundedIn (compensation env x reason o r).events t) :
    o.status ≠ .cancelledRefunded ∧ r.status ≠ .confirmed ∧ o.refundTarget x = some t
      ∧ env.Refunds := by
  rcases compensation_cases env x reason o r with ⟨-, -, hev, -⟩ | ⟨r', hrel, -, hs, h'⟩
  · rw [hev] at h
    obtain ⟨q, res, hmem, -⟩ := h
    cases hmem
  have hr : r.status ≠ .confirmed := fun hc => Reservation.not_released hc hrel
  rcases h' with ⟨-, hev, -⟩ | ⟨t', ht', ⟨-, -, hev⟩ | ⟨res, hok, -, hev⟩⟩ <;> rw [hev] at h
  · obtain ⟨q, res, hmem, -⟩ := h
    cases hmem
  · obtain ⟨q, res, hmem, -⟩ := h
    simp at hmem
  · obtain ⟨rfl, hsucc⟩ := refunded_one.1 h
    exact ⟨hs, hr, ht', res, hok, hsucc⟩

/-- A compensation refunds the transaction it is about, or leaves the order owing it, where it is
the one the order would refund next. -/
theorem compensation_takes_iff {env : CompensationEnv} {x : Option String}
    {reason : CompensationReason} (hs : o.status ≠ .cancelledRefunded) (hc : o.status ≠ .confirmed)
    (hr : r.status ≠ .confirmed) (hx : o.refundTarget x = some t) :
    (compensation env x reason o r).AccountsFor t
      ↔ env.Refunds ∨ o.refundTarget none = some t
        ∧ ((∃ res, env.refund = .ok res) ∨ o.Unpaid) := by
  unfold Effect.AccountsFor
  set e := compensation env x reason o r with he
  rcases compensation_cases env x reason o r with ⟨-, -, -, hs' | hr'⟩ | ⟨r', hrel, hres, -, h'⟩
  · exact absurd hs' hs
  · exact absurd hr' hr
  have hnot : e.reservation.status ≠ .confirmed := hres ▸ released_not_confirmed hrel
  rcases h' with ⟨hn, -⟩ | ⟨t', ht', ⟨⟨err, herr⟩, ho, hev⟩ | ⟨res, hok, ho, hev⟩⟩
  · simp [hx] at hn
  · -- the gateway throws: the order is as it was
    have hno : ¬ env.Refunds := by
      rintro ⟨res, hok, -⟩
      simp [herr] at hok
    have hans : e.order.AnswersFor e.reservation t ↔ o.Owes t := by
      rw [show e.order = o from ho]
      exact ⟨fun h => (h.owes hc).1, fun h => .inr ⟨h, hnot⟩⟩
    have hnone : ¬ RefundedIn e.events t := fun h => hno (compensation_refunded h).2.2.2
    rw [hans, or_iff_left hnone, or_iff_right hno, herr]
    simp [Order.Owes, and_comm]
  obtain rfl : t = t' := by simpa [hx] using ht'
  have hrefunds : env.Refunds ↔ res.status = .success :=
    ⟨fun ⟨res', hok', hs'⟩ => by rw [hok] at hok'; cases hok'; exact hs', fun h => ⟨res, hok, h⟩⟩
  have hev' : RefundedIn e.events t ↔ res.status = .success := by
    rw [show e.events = _ from hev, refunded_one]
    exact and_iff_right rfl
  rw [hev', hrefunds, show e.order = _ from ho]
  by_cases hsucc : res.status = .success
  · simp [hsucc]
  · have hans : (o.settled env res).AnswersFor e.reservation t ↔ o.refundTarget none = some t := by
      rw [← settled_owes_iff env hsucc]
      exact ⟨fun h => (h.owes (settled_not_confirmed o env res)).1, fun h => .inr ⟨h, hnot⟩⟩
    simp [hsucc, hans, hok]

/-- What an order answers for is kept or refunded by a compensation, unless it misses it. -/
theorem compensation_keeps_iff {env : CompensationEnv} {x : Option String}
    {reason : CompensationReason} (h : o.AnswersFor r t) :
    (compensation env x reason o r).AccountsFor t ↔ ¬ env.Misses o r x t := by
  unfold Effect.AccountsFor
  set e := compensation env x reason o r with he
  rcases compensation_cases env x reason o r with ⟨ho, hres, hev, hs⟩ | ⟨r', hrel, hres, -, h'⟩
  · have hr : ¬ env.Misses o r x t := by
      rintro ⟨hr, -⟩
      refine (h.owes ?_).1.1.ne_cancelledRefunded (hs.resolve_right hr)
      simp [hs.resolve_right hr]
    rw [show e.order = o from ho, show e.reservation = r from hres]
    exact iff_of_true (.inl h) hr
  have hr : r.status ≠ .confirmed := fun hc => Reservation.not_released hc hrel
  have hnot : e.reservation.status ≠ .confirmed := hres ▸ released_not_confirmed hrel
  have hsame : e.order = o → e.order.AnswersFor e.reservation t := by
    intro ho
    rw [ho]
    exact h.imp_right fun h => ⟨h.1, hnot⟩
  rcases h' with ⟨hn, -, ⟨-, ho⟩ | ⟨hs, -⟩⟩ | ⟨t', ht', ⟨⟨err, herr⟩, ho, -⟩ | ⟨res, hok, ho, hev⟩⟩
  · refine iff_of_true (.inl (hsame ho)) ?_
    rintro ⟨-, t', ht', -⟩
    simp [hn] at ht'
  · -- an order that is not CONFIRMED and answers for something has something to refund
    obtain ⟨⟨-, hno⟩, -⟩ := h.owes hs
    rw [o.refundTarget_eq, hno] at hn
    simp at hn
  · refine iff_of_true (.inl (hsame ho)) ?_
    rintro ⟨-, -, -, -, ⟨res, hok, -⟩ | ⟨-, res, hok⟩⟩ <;> simp [herr] at hok
  have hmisses : env.Misses o r x t ↔ t' ≠ t ∧ (res.status = .success ∨ t = "") := by
    unfold CompensationEnv.Misses CompensationEnv.Refunds
    simp [hr, ht', hok]
  have hev' : RefundedIn e.events t ↔ t' = t ∧ res.status = .success := by
    rw [show e.events = _ from hev, refunded_one]
    rfl
  have hempty : t = "" → t' ≠ t := by
    rintro rfl
    exact Order.refundTarget_ne_empty ht'
  rw [hmisses, hev', show e.order = _ from ho]
  by_cases hsucc : res.status = .success
  · rw [or_iff_right (settled_refunded hsucc)]
    simp [hsucc]
  · have hans : (o.settled env res).AnswersFor e.reservation t ↔ o.refundTarget none = some t := by
      rw [← settled_owes_iff env hsucc]
      exact ⟨fun h => (h.owes (settled_not_confirmed o env res)).1, fun h => .inr ⟨h, hnot⟩⟩
    have hnone : o.refundTarget none = some t ↔ t ≠ "" := by
      refine ⟨Order.refundTarget_ne_empty, fun hne => ?_⟩
      rcases h with ⟨-, hp⟩ | ⟨h, -⟩
      · rw [Order.refundTarget, hp, truthy_some hne]
        rfl
      · exact h.2
    rw [hans, hnone]
    simp only [hsucc, and_false, or_false, false_or, not_and]
    exact ⟨fun hne _ => hne, fun h he => h (hempty he) he⟩

/-! ## Payment -/

theorem RefundedIn.mono {log log' : List PortEvent} (h : RefundedIn log t) (hsub : log ⊆ log') :
    RefundedIn log' t := by
  obtain ⟨request, res, hmem, hrest⟩ := h
  exact ⟨request, res, hsub hmem, hrest⟩

theorem refundedIn_append {pre events : List PortEvent}
    (hpre : ∀ ev ∈ pre, ∀ q res, ev ≠ .refundAnswered q res) :
    RefundedIn (pre ++ events) t ↔ RefundedIn events t := by
  refine ⟨?_, fun h => h.mono (List.subset_append_right _ _)⟩
  rintro ⟨q, res, hmem, hrest⟩
  rcases List.mem_append.1 hmem with hmem | hmem
  · exact absurd rfl (hpre _ hmem q res)
  · exact ⟨q, res, hmem, hrest⟩

theorem not_refundedIn {events : List PortEvent}
    (h : ∀ ev ∈ events, ∀ q res, ev ≠ .refundAnswered q res) : ¬ RefundedIn events t := by
  rintro ⟨q, res, hmem, -⟩
  exact h _ hmem q res rfl

/-- What follows a charge that went through, for an order it does not confirm. -/
theorem payment_compensates {env : PaymentEnv} {command : ProcessPaymentCommand}
    {result : ChargeResult} (h : (Call.processPayment env command).Charges o result)
    (hno : ¬ (env.Fulfils o ∧ r.CanConfirm env.checkAt)) :
    ∃ o₁ cause, (o₁ = o.attempted env command result ∧ ¬ env.Fulfils o
        ∨ o₁ = (o.attempted env command result).confirmedBy result.transactionId env.confirmAt
          ∧ env.Fulfils o)
      ∧ (payment env command o r).reservation
        = (compensation env.compensation result.transactionId (.fulfillment cause) o₁ r).reservation
      ∧ ∀ t, (payment env command o r).AccountsFor t
        ↔ (compensation env.compensation result.transactionId (.fulfillment cause) o₁ r).AccountsFor
          t := by
  obtain ⟨hpaid, hs, hch, hres⟩ := h
  have hs' := retried_ne_confirmed hs env command result
  rcases payment_cases env command o r with ⟨-, -, -, h | h⟩ | ⟨-, -, ⟨⟨e, he⟩, -⟩ |
    ⟨result', hch', ho, hr, hev⟩⟩
  · exact absurd hpaid h
  · exact absurd h hs
  · simp [hch] at he
  obtain rfl : result = result' := by simpa [hch] using hch'
  rw [charged, hres] at ho hr hev
  rcases fulfilment_cases env result r hs' with ⟨hiss, hcon, hcan, -⟩ |
    ⟨o₁, cause, pre, hpre, ho₁, ho', hr', hev'⟩
  · exact absurd ⟨⟨hiss, Order.confirmable_attempted.1 hcon⟩, hcan⟩ hno
  · refine ⟨o₁, cause, ?_, by rw [hr, hr'], fun t => ?_⟩
    · rcases ho₁ with ⟨rfl, hnf⟩ | ⟨rfl, hiss, hcon, -⟩
      · exact .inl ⟨rfl, fun hf => hnf ⟨hf.1, Order.confirmable_attempted.2 hf.2⟩⟩
      · exact .inr ⟨rfl, hiss, Order.confirmable_attempted.1 hcon⟩
    · have hev₁ : (payment env command o r).events = (.chargeRequested (chargeRequest env command o)
          :: .chargeAnswered (chargeRequest env command o) result
          :: .ticketRequested o.id :: pre)
          ++ (compensation env.compensation result.transactionId (.fulfillment cause) o₁
            r).events := by
        rw [hev]
        simp only [hev', List.cons_append]
      unfold Effect.AccountsFor
      rw [ho, hr, hev₁]
      simp only [ho', hr']
      refine or_congr_right (refundedIn_append fun ev hmem q res => ?_)
      simp only [List.mem_cons] at hmem
      rcases hmem with rfl | rfl | rfl | hmem
      · simp
      · simp
      · simp
      · rw [hpre ev hmem]
        simp

theorem forgets_payment {env : PaymentEnv} {command : ProcessPaymentCommand} :
    (Call.processPayment env command).Forgets w o r t
      ↔ ∃ result t', (Call.processPayment env command).Charges o result
        ∧ truthy result.transactionId = some t' ∧ t' ≠ t ∧ env.compensation.Refunds := by
  constructor
  · rintro (⟨env', command', result, t', hc, h⟩ | ⟨t', h, -⟩ | ⟨env', id, x, reason, hc, -⟩)
    · cases hc
      exact ⟨result, t', h⟩
    · exact h.elim
    · cases hc
  · rintro ⟨result, t', h⟩
    exact .inl ⟨env, command, result, t', rfl, h⟩

/-- What an order answers for is kept or refunded by a payment, unless the payment makes it
forget. -/
theorem payment_keeps_iff {env : PaymentEnv} {command : ProcessPaymentCommand}
    (h : o.AnswersFor r t) :
    (payment env command o r).AccountsFor t
      ↔ ¬ (Call.processPayment env command).Forgets w o r t := by
  rw [forgets_payment]
  rcases payment_cases env command o r with
    ⟨ho, hr, -, hno⟩ | ⟨hpaid, hs, ⟨⟨err, herr⟩, ho, hr, -⟩ | ⟨result, hch, ho, hr, -⟩⟩
  · refine iff_of_true (.inl (by rwa [ho, hr])) ?_
    rintro ⟨result, -, ⟨hpaid, hs, -⟩, -⟩
    exact hno.elim (fun h => h hpaid) hs
  · obtain ⟨howes, hrs⟩ := h.owes hs
    have hret : o.retried = o := if_neg (by rcases howes.1 with h | h <;> simp [h])
    refine iff_of_true (.inl (by rwa [ho, hr, hret])) ?_
    rintro ⟨result, -, ⟨-, -, hch, -⟩, -⟩
    simp [herr] at hch
  obtain ⟨howes, hrs⟩ := h.owes hs
  have howes' := howes.attempted env command result
  have hne : t ≠ "" := Order.refundTarget_ne_empty howes.2
  by_cases hres : result.status = .success
  swap
  · obtain ⟨-, -, hnc, ho' | ⟨hpend, -⟩⟩ := charged_unpaid env command o r hres
    · refine iff_of_true (.inl ?_) ?_
      · rw [ho, hr, ho']
        exact .inr ⟨howes', hnc hrs⟩
      rintro ⟨result', -, ⟨-, -, hch', hres'⟩, -⟩
      obtain rfl : result = result' := by simpa [hch] using hch'
      exact hres hres'
    · rcases howes'.1 with h | h <;> simp [hpend] at h
  -- the order still owes its transaction, and is compensated for that of the charge
  have hcharges : (Call.processPayment env command).Charges o result := ⟨hpaid, hs, hch, hres⟩
  obtain ⟨o₁, cause, ho₁, -, hacc⟩ := payment_compensates (r := r) hcharges
    fun hf => howes.1.not_confirmable hf.1.2
  obtain rfl : o₁ = o.attempted env command result := by
    rcases ho₁ with ⟨h, -⟩ | ⟨-, hf⟩
    · exact h
    · exact absurd hf.2 howes.1.not_confirmable
  rw [hacc, compensation_keeps_iff (.inr ⟨howes', hrs⟩), not_iff_not]
  constructor
  · rintro ⟨-, t', ht', hne', hlost⟩
    rw [Order.refundTarget_eq, howes'.2] at ht'
    rcases htx : truthy result.transactionId with _ | y
    · rw [htx] at ht'
      exact absurd (Option.some.inj ht').symm hne'
    · rw [htx] at ht'
      obtain rfl : y = t' := by simpa using ht'
      exact ⟨result, y, hcharges, htx, hne', hlost.resolve_right fun h => hne h.1⟩
  · rintro ⟨result', t', ⟨-, -, hch', -⟩, htx, hne', hrefunds⟩
    obtain rfl : result = result' := by simpa [hch] using hch'
    refine ⟨hrs, t', ?_, hne', .inl hrefunds⟩
    rw [Order.refundTarget_eq, htx]
    rfl

theorem loses_payment {env : PaymentEnv} {command : ProcessPaymentCommand} {result : ChargeResult}
    (h : (Call.processPayment env command).Charges o result)
    (ht : result.transactionId = some t) :
    (Call.processPayment env command).Loses w o r t
      ↔ ¬ (Call.processPayment env command).Confirms w o r ∧ env.Strands o r t := by
  constructor
  · rintro (⟨env', command', result', hc, -, -, hlost⟩ | ⟨h, -⟩ | ⟨h, -⟩)
    · cases hc
      exact hlost
    · exact h.elim
    · exact h.elim
  · exact fun hlost => .inl ⟨env, command, result, rfl, h, ht, hlost⟩

/-- What a compensation accounts for has an id, and its order and its seat can be given up. -/
theorem compensation_accountsFor {env : CompensationEnv} {x : Option String}
    {reason : CompensationReason} (hc : o.status ≠ .confirmed)
    (h : (compensation env x reason o r).AccountsFor t) :
    o.status ≠ .cancelledRefunded ∧ r.status ≠ .confirmed ∧ t ≠ "" := by
  rcases h with hkept | hrefunded
  · obtain ⟨⟨hunpaid, htarget⟩, hrs⟩ := hkept.owes (compensation_not_confirmed hc)
    have hne : t ≠ "" := Order.refundTarget_ne_empty htarget
    rcases compensation_cases env x reason o r with ⟨ho, hr, -⟩ | ⟨r', hrel, -, hs, -⟩
    · rw [ho] at hunpaid
      rw [hr] at hrs
      exact ⟨hunpaid.ne_cancelledRefunded, hrs, hne⟩
    · exact ⟨hs, fun h => Reservation.not_released h hrel, hne⟩
  · obtain ⟨hs, hrs, htarget, -⟩ := compensation_refunded hrefunded
    exact ⟨hs, hrs, Order.refundTarget_ne_empty htarget⟩

/-- A charge that confirmed its order, but not its reservation: its transaction is stranded only
where it has no id, and the order is compensated for another one. -/
theorem strands_confirmed_iff {env : PaymentEnv} {command : ProcessPaymentCommand}
    {result : ChargeResult} {reason : CompensationReason} (hres : result.status = .success)
    (ht : result.transactionId = some t) (hf : env.Fulfils o) (hrs : r.status ≠ .confirmed)
    (hid : ¬ (truthy result.transactionId = none ∧ truthy o.successTransactionId = none)) :
    (compensation env.compensation result.transactionId reason
        ((o.attempted env command result).confirmedBy result.transactionId env.confirmAt)
        r).AccountsFor t ↔ ¬ env.Strands o r t := by
  have hcr : o.status ≠ .cancelledRefunded := by
    rcases hf.2 with h | h | h <;> simp [h]
  have hstrands : env.Strands o r t ↔ t = "" ∧ ∃ res, env.compensation.refund = .ok res := by
    unfold PaymentEnv.Strands
    rcases env.compensation.refund with e | res <;> simp [hcr, hrs, hf]
  rw [compensation_keeps_iff (.inl ⟨rfl, ht⟩), not_iff_not, hstrands]
  constructor
  · rintro ⟨-, t', ht', hne, hlost⟩
    have hempty : t = "" := by
      by_contra hne'
      rw [Order.refundTarget_eq, ht, truthy_some hne'] at ht'
      exact hne (Option.some.inj ht').symm
    exact ⟨hempty, hlost.elim (fun ⟨res, hok, _⟩ => ⟨res, hok⟩) fun h => h.2⟩
  · rintro ⟨rfl, hok⟩
    have hsome : ((o.attempted env command result).confirmedBy result.transactionId
        env.confirmAt).refundTarget result.transactionId ≠ none := by
      rw [Ne, refundTarget_confirmedBy env command hres]
      exact hid
    obtain ⟨t', ht'⟩ := Option.ne_none_iff_exists'.1 hsome
    exact ⟨hrs, t', ht', Order.refundTarget_ne_empty ht', .inr ⟨rfl, hok⟩⟩

/-- A charge whose order is as the charge left it: its transaction is the one that is refunded. -/
theorem strands_unfulfilled_iff {env : PaymentEnv} {command : ProcessPaymentCommand}
    {result : ChargeResult} {reason : CompensationReason}
    (h : (Call.processPayment env command).Charges o result)
    (ht : result.transactionId = some t) (hnf : ¬ env.Fulfils o) :
    (compensation env.compensation result.transactionId reason (o.attempted env command result)
        r).AccountsFor t ↔ ¬ env.Strands o r t := by
  have hs' := retried_ne_confirmed h.2.1 env command result
  have hcr := o.attempted_cancelledRefunded_iff env command result
  by_cases hlost : o.status = .cancelledRefunded ∨ r.status = .confirmed ∨ t = ""
  · refine iff_of_false (fun hacc => ?_) fun hno => hno ?_
    · obtain ⟨hs, hrs, hne⟩ := compensation_accountsFor hs' hacc
      rcases hlost with hgone | hsold | hempty
      · exact hs (hcr.2 hgone)
      · exact hrs hsold
      · exact hne hempty
    · exact hlost.imp_right fun h => h.imp_right fun h => .inl ⟨h, fun hf => hnf hf.1⟩
  obtain ⟨hs, hlost⟩ := not_or.1 hlost
  obtain ⟨hrs, hne⟩ := not_or.1 hlost
  have htarget : (o.attempted env command result).refundTarget result.transactionId = some t := by
    rw [Order.refundTarget_eq, ht, truthy_some hne]
    rfl
  rw [compensation_takes_iff (fun h => hs (hcr.1 h)) hs' hrs htarget,
    Order.attempted_remembers env command h.2.2.2 ht hne, Order.unpaid_attempted]
  unfold PaymentEnv.Strands
  rcases env.compensation.refund with e | res
  · simp [hs, hrs, hne, hnf]
    tauto
  · simp [hs, hrs, hne, hnf]
    tauto

/-- The transaction of a charge that its order is not CONFIRMED with is answered for or refunded,
unless it is stranded. -/
theorem payment_strands_iff {env : PaymentEnv} {command : ProcessPaymentCommand}
    {result : ChargeResult} (h : (Call.processPayment env command).Charges o result)
    (ht : result.transactionId = some t)
    (hc : ¬ (Call.processPayment env command).Confirms w o r) :
    (payment env command o r).AccountsFor t ↔ ¬ env.Strands o r t := by
  have hcon : env.Fulfils o → ¬ (r.CanConfirm env.checkAt ∨ r.status = .confirmed
      ∨ truthy result.transactionId = none ∧ truthy o.successTransactionId = none) :=
    fun hf hwhy => hc ⟨h.1, hf.2, hf.1, result, h.2.2.1, h.2.2.2, hwhy⟩
  obtain ⟨o₁, cause, ho₁, -, hacc⟩ := payment_compensates (r := r) h
    fun hf => hcon hf.1 (.inl hf.2)
  rw [hacc]
  rcases ho₁ with ⟨rfl, hnf⟩ | ⟨rfl, hf⟩
  · exact strands_unfulfilled_iff h ht hnf
  · exact strands_confirmed_iff h.2.2.2 ht hf (fun hrs => hcon hf (.inr (.inl hrs)))
      fun hid => hcon hf (.inr (.inr hid))

/-- The order comes to answer for the transaction of a charge, or it is refunded, unless the
payment loses it. -/
theorem payment_takes_iff {env : PaymentEnv} {command : ProcessPaymentCommand}
    {result : ChargeResult} (h : (Call.processPayment env command).Charges o result)
    (ht : result.transactionId = some t) :
    (payment env command o r).AccountsFor t
      ↔ ¬ (Call.processPayment env command).Loses w o r t := by
  rw [loses_payment h ht]
  by_cases hc : (Call.processPayment env command).Confirms w o r
  · obtain ⟨⟨result', hch, ho⟩, -⟩ := payment_confirms hc
    obtain rfl : result = result' := by simpa [h.2.2.1] using hch
    refine iff_of_true (.inl (.inl ?_)) fun h => h.1 hc
    rw [ho]
    exact ⟨rfl, ht⟩
  · rw [payment_strands_iff h ht hc]
    simp [hc]

/-! ## Callbacks -/

theorem webhook_events (env : WebhookEnv) (seen : Finset String) (payload : PaymentWebhookPayload)
    (o : Order) (r : Reservation) : (webhook env seen payload o r).events = [] := by
  unfold webhook
  split_ifs with hseen hs
  · rfl
  · rfl
  · exact (callback_cases env payload r hs).1

theorem webhook_not_refunded (env : WebhookEnv) (seen : Finset String)
    (payload : PaymentWebhookPayload) (o : Order) (r : Reservation) :
    ¬ RefundedIn (webhook env seen payload o r).events t := by
  rw [webhook_events]
  exact not_refundedIn (by simp)

/-- An order marked for a refund owes the transaction it is marked with, or, if that has no text,
the first one it was charged. -/
theorem markRefundRequired_owes_iff (o : Order) (t' : String) :
    (o.markRefundRequired t').Owes t
      ↔ if t' = "" then truthy o.successTransactionId = some t else t' = t := by
  have htarget : (o.markRefundRequired t').refundTarget none
      = (truthy (some t')).or (truthy o.successTransactionId) := rfl
  have hunpaid : (o.markRefundRequired t').Unpaid := .inr rfl
  unfold Order.Owes
  rw [and_iff_right hunpaid, htarget]
  split_ifs with he
  · rw [he]
    rfl
  · rw [truthy_some he]
    simp

/-- What an order answers for is kept by a callback, unless the callback makes it forget. -/
theorem webhook_keeps_iff {env : WebhookEnv} {self : ℕ} {payload : PaymentWebhookPayload}
    (h : o.AnswersFor r t) :
    (webhook env (w.processedWebhookEvents self) payload o r).order.AnswersFor
        (webhook env (w.processedWebhookEvents self) payload o r).reservation t
      ↔ ¬ (Call.handlePaymentWebhook env self payload).Forgets w o r t := by
  have hforgets : (Call.handlePaymentWebhook env self payload).Forgets w o r t
      ↔ (payload.eventId ∉ w.processedWebhookEvents self ∧ o.status ≠ .confirmed
          ∧ payload.status = .success ∧ isExpired o r env.now)
        ∧ payload.providerTransactionId ≠ t
        ∧ (payload.providerTransactionId = "" → truthy o.successTransactionId ≠ some t) := by
    constructor
    · rintro (⟨env', command, result, t', hc, -⟩ | ⟨t', ⟨hseen, hs, hp, he, rfl⟩, hne⟩ |
        ⟨env', id, x, reason, hc, -⟩)
      · cases hc
      · exact ⟨⟨hseen, hs, hp, he⟩, hne⟩
      · cases hc
    · rintro ⟨⟨hseen, hs, hp, he⟩, hne⟩
      exact .inr (.inl ⟨_, ⟨hseen, hs, hp, he, rfl⟩, hne⟩)
  rw [hforgets]
  unfold webhook
  split_ifs with hseen hs
  · exact iff_of_true h fun hf => hf.1.1 hseen
  · exact iff_of_true h fun hf => hf.1.2.1 hs
  obtain ⟨howes, hrs⟩ := h.owes hs
  obtain ⟨-, ⟨hp, -, hnc, ho⟩ | ⟨hp, he, ho, hr, -⟩ | ⟨-, he, -, ho, hr, -⟩ | ⟨-, -, hcon, -⟩⟩ :=
    callback_cases env payload r hs
  · rcases ho with ho | ⟨hpend, -⟩
    · rw [ho]
      exact iff_of_true (.inr ⟨howes, hnc hrs⟩) fun hf => hp hf.1.2.2.1
    · rcases howes.1 with h | h <;> simp [hpend] at h
  · have hans : (o.markRefundRequired payload.providerTransactionId).AnswersFor r t
        ↔ (o.markRefundRequired payload.providerTransactionId).Owes t := by
      refine ⟨fun h => (h.owes ?_).1, fun h => .inr ⟨h, hrs⟩⟩
      rw [show (o.markRefundRequired _).status = .refundRequired from rfl]
      simp
    have hne : t ≠ "" := Order.refundTarget_ne_empty howes.2
    rw [ho, hr, hans, markRefundRequired_owes_iff]
    split_ifs with hempty
    · simp [hseen, hs, hp, he, hempty, hne.symm]
    · simp [hseen, hs, hp, he, hempty]
  · rw [ho, hr]
    exact iff_of_true h fun hf => he hf.1.2.2.2
  · exact absurd hcon howes.1.not_confirmable

/-- The order comes to answer for the transaction of a SUCCESS callback that is handled, unless the
callback loses it. -/
theorem webhook_takes_iff {env : WebhookEnv} {self : ℕ} {payload : PaymentWebhookPayload}
    {reply : WebhookResult} (hp : payload.status = .success)
    (ht : payload.providerTransactionId = t)
    (hreply : (webhook env (w.processedWebhookEvents self) payload o r).result = .ok reply) :
    (webhook env (w.processedWebhookEvents self) payload o r).order.AnswersFor
        (webhook env (w.processedWebhookEvents self) payload o r).reservation t
      ↔ ¬ (Call.handlePaymentWebhook env self payload).Loses w o r t := by
  have hloses : (Call.handlePaymentWebhook env self payload).Loses w o r t
      ↔ payload.eventId ∉ w.processedWebhookEvents self ∧ o.status ≠ .confirmed
          ∧ isExpired o r env.now ∧ (t = "" ∨ r.status = .confirmed)
        ∨ (payload.eventId ∈ w.processedWebhookEvents self ∨ o.status = .confirmed)
          ∧ ¬ o.AnswersFor r t := by
    constructor
    · rintro (⟨env', command, result, hc, -⟩ | ⟨⟨hseen, hs, -, he, -⟩, hlost⟩ | ⟨⟨-, -, hig⟩, hno⟩)
      · cases hc
      · exact .inl ⟨hseen, hs, he, hlost⟩
      · exact .inr ⟨hig, hno⟩
    · rintro (⟨hseen, hs, he, hlost⟩ | ⟨hig, hno⟩)
      · exact .inr (.inl ⟨⟨hseen, hs, hp, he, ht⟩, hlost⟩)
      · exact .inr (.inr ⟨⟨hp, ht, hig⟩, hno⟩)
  rw [hloses]
  unfold webhook at *
  split_ifs at * with hseen hs
  · simp [hseen]
  · simp [hseen, hs]
  obtain ⟨-, ⟨hp', -⟩ | ⟨-, he, ho, hr, -⟩ | ⟨-, -, -, -, -, err, herr⟩ |
    ⟨-, he, hcon, ho, ⟨-, hr, -⟩ | ⟨-, -, err, herr⟩⟩⟩ := callback_cases env payload r hs
  · exact absurd hp hp'
  · have hans : (o.markRefundRequired t).AnswersFor r t ↔ t ≠ "" ∧ r.status ≠ .confirmed := by
      have howes : (o.markRefundRequired t).Owes t ↔ t ≠ "" := by
        refine ⟨fun h => Order.refundTarget_ne_empty h.2, fun hne => ?_⟩
        rw [markRefundRequired_owes_iff, if_neg hne]
      rw [← howes]
      refine ⟨fun h => h.owes ?_, .inr⟩
      rw [show (o.markRefundRequired _).status = .refundRequired from rfl]
      simp
    rw [ho, hr, ht, hans]
    simp [hseen, hs, he]
  · simp [hreply] at herr
  · rw [ho, ht]
    refine iff_of_true (.inl ⟨rfl, rfl⟩) ?_
    rintro (⟨-, -, he', -⟩ | ⟨hig, -⟩)
    · exact he he'
    · exact hig.elim hseen hs
  · simp [hreply] at herr

/-! ## Any call -/

/-- What an order answers for is kept or refunded by a call, unless the call makes it forget. -/
theorem Call.effect_keeps_iff (h : o.AnswersFor r t) :
    (c.effect w o r).AccountsFor t ↔ ¬ c.Forgets w o r t := by
  cases c with
  | initiateCheckout => exact iff_of_true (.inl h) (by simp [Forgets, Late])
  | expire => exact iff_of_true (.inl h) (by simp [Forgets, Late])
  | processPayment env command => exact payment_keeps_iff h
  | handlePaymentWebhook env self payload =>
    rw [← webhook_keeps_iff h]
    exact or_iff_left (webhook_not_refunded env _ payload o r)
  | compensateOrder env id x reason =>
    refine (compensation_keeps_iff h).trans (not_congr ?_)
    simp [Forgets, Late]
  | retryCompensation env id =>
    refine iff_of_true ?_ (by simp [Forgets, Late])
    simp only [effect]
    split_ifs with hs
    · exact .inl h
    · refine (compensation_keeps_iff h).2 ?_
      rintro ⟨-, t', ht', hne, -⟩
      obtain ⟨howes, -⟩ := h.owes (by simp [not_not.1 hs])
      rw [howes.2] at ht'
      exact hne (Option.some.inj ht').symm

/-- The call captures the transaction for the order. -/
def Call.Captures (w : World) (o : Order) (r : Reservation) (t : String) (c : Call) : Prop :=
  (∃ result, c.Charges o result ∧ result.transactionId = some t)
    ∨ ∃ env self payload, c = .handlePaymentWebhook env self payload ∧ payload.status = .success
      ∧ payload.providerTransactionId = t ∧ ∃ reply, (c.effect w o r).result = .ok reply

/-- The order comes to answer for a transaction the call captures, or it is refunded, unless the
call loses it. -/
theorem Call.effect_takes_iff (h : c.Captures w o r t) :
    (c.effect w o r).AccountsFor t ↔ ¬ c.Loses w o r t := by
  rcases h with ⟨result, hch, ht⟩ | ⟨env, self, payload, rfl, hp, ht, reply, hreply⟩
  · cases c with
    | processPayment env command => exact payment_takes_iff hch ht
    | handlePaymentWebhook => exact hch.elim
    | initiateCheckout => exact hch.elim
    | expire => exact hch.elim
    | compensateOrder => exact hch.elim
    | retryCompensation => exact hch.elim
  · rcases hres : (webhook env (w.processedWebhookEvents self) payload o r).result with e | a
    · simp [effect, Effect.map, hres] at hreply
      cases hreply
    · rw [← webhook_takes_iff hp ht hres]
      exact or_iff_left (webhook_not_refunded env _ payload o r)

theorem payment_sold {env : PaymentEnv} {command : ProcessPaymentCommand}
    (h : (payment env command o r).reservation.status = .confirmed) (hr : r.status ≠ .confirmed) :
    (Call.processPayment env command).Confirms w o r ∧ r.CanConfirm env.checkAt := by
  rcases payment_cases env command o r with ⟨-, hres, -⟩ | ⟨hpaid, hs, ⟨-, -, hres, -⟩ |
    ⟨result, hch, -, hres, -⟩⟩
  · exact absurd (hres ▸ h) hr
  · exact absurd (hres ▸ h) hr
  by_cases hst : result.status = .success
  · by_cases hf : env.Fulfils o ∧ r.CanConfirm env.checkAt
    · exact ⟨⟨hpaid, hf.1.2, hf.1.1, result, hch, hst, .inl hf.2⟩, hf.2⟩
    · have hcharges : (Call.processPayment env command).Charges o result := ⟨hpaid, hs, hch, hst⟩
      obtain ⟨o₁, cause, -, hr', -⟩ := payment_compensates hcharges hf
      rw [hr'] at h
      exact absurd h (compensation_reservation hr)
  · obtain ⟨-, -, hnc, -⟩ := charged_unpaid env command o r hst
    rw [hres] at h
    exact absurd h (hnc hr)

/-- A reservation a call leaves CONFIRMED was so before, or the call confirms it. -/
theorem Call.effect_sold (h : (c.effect w o r).reservation.status = .confirmed)
    (hr : r.status ≠ .confirmed) : c.Confirms w o r ∧ r.CanConfirm c.checkAt := by
  cases c with
  | initiateCheckout => exact absurd h hr
  | expire => exact absurd h hr
  | processPayment env command => exact payment_sold h hr
  | compensateOrder env id x reason => exact absurd h (compensation_reservation hr)
  | retryCompensation env id =>
    simp only [effect] at h
    split_ifs at h
    · exact absurd h hr
    · exact absurd h (compensation_reservation hr)
  | handlePaymentWebhook env self payload =>
    simp only [effect, Effect.map, webhook] at h
    split_ifs at h with hseen hs
    · exact absurd h hr
    · exact absurd h hr
    obtain ⟨-, ⟨-, -, hnc, -⟩ | ⟨-, -, -, hres, -⟩ | ⟨-, -, -, -, hres, -⟩ |
      ⟨hp, he, hcon, -, ⟨hcan, -⟩ | ⟨-, hres, -⟩⟩⟩ := callback_cases env payload r hs
    · exact absurd h (hnc hr)
    · exact absurd (hres ▸ h) hr
    · exact absurd (hres ▸ h) hr
    · exact ⟨⟨hseen, hp, hcon, he⟩, hcan⟩
    · exact absurd (hres ▸ h) hr

/-! ## What is charged -/

theorem compensation_charges (env : CompensationEnv) (x : Option String)
    (reason : CompensationReason) (o : Order) (r : Reservation) (q : ChargeRequest)
    (res : ChargeResult) : .chargeAnswered q res ∉ (compensation env x reason o r).events := by
  rcases compensation_cases env x reason o r with ⟨-, -, hev, -⟩ | ⟨r', -, -, -, ⟨-, hev, -⟩ |
    ⟨t, -, ⟨-, -, hev⟩ | ⟨res', -, -, hev⟩⟩⟩ <;> simp [hev]

/-- A payment answers one charge. -/
theorem payment_charges {env : PaymentEnv} {command : ProcessPaymentCommand} {q : ChargeRequest}
    {res : ChargeResult} (h : .chargeAnswered q res ∈ (payment env command o r).events)
    (hs : res.status = .success) :
    q.orderId = o.id ∧ (Call.processPayment env command).Charges o res := by
  rcases payment_cases env command o r with ⟨-, -, hev, -⟩ | ⟨hpaid, hso, ⟨-, -, -, hev⟩ |
    ⟨result, hch, -, -, hev⟩⟩
  · simp [hev] at h
  · simp [hev] at h
  rw [hev] at h
  simp only [List.mem_cons, PortEvent.chargeAnswered.injEq, reduceCtorEq, false_or] at h
  rcases h with ⟨rfl, rfl⟩ | h
  · exact ⟨rfl, hpaid, hso, hch, hs⟩
  by_cases hres : result.status = .success
  · rw [charged, hres] at h
    simp only [List.mem_cons, reduceCtorEq, false_or] at h
    rcases fulfilment_cases env result r (retried_ne_confirmed hso env command result) with
      ⟨-, -, -, -, -, hev'⟩ | ⟨o₁, cause, pre, hpre, -, -, -, hev'⟩ <;> rw [hev'] at h
    · simp at h
    · rcases List.mem_append.1 h with h | h
      · cases hpre _ h
      · exact (compensation_charges _ _ _ _ _ _ _ h).elim
  · obtain ⟨hno, -⟩ := charged_unpaid env command o r hres
    simp [hno] at h

theorem Call.effect_charges {id : String} (h : ChargedIn (c.effect w o r).events id t) :
    id = o.id ∧ c.Captures w o r t := by
  obtain ⟨q, res, hmem, rfl, hs, ht⟩ := h
  cases c with
  | initiateCheckout => simp [effect] at hmem
  | expire => simp [effect] at hmem
  | processPayment env command =>
    obtain ⟨hid, hch⟩ := payment_charges hmem hs
    exact ⟨hid, .inl ⟨res, hch, ht⟩⟩
  | compensateOrder env id x reason => exact (compensation_charges _ _ _ _ _ _ _ hmem).elim
  | retryCompensation env id =>
    simp only [effect] at hmem
    split_ifs at hmem
    · simp at hmem
    · exact (compensation_charges _ _ _ _ _ _ _ hmem).elim
  | handlePaymentWebhook env self payload =>
    simp [effect, Effect.map, webhook_events] at hmem

/-- A payment that charges logs the gateway's answer. -/
theorem payment_answers {env : PaymentEnv} {command : ProcessPaymentCommand} {result : ChargeResult}
    (h : (Call.processPayment env command).Charges o result) :
    ∃ q : ChargeRequest, .chargeAnswered q result ∈ (payment env command o r).events
      ∧ q.orderId = o.id := by
  obtain ⟨hpaid, hs, hch, -⟩ := h
  rcases payment_cases env command o r with ⟨-, -, -, h | h⟩ | ⟨-, -, ⟨⟨e, he⟩, -⟩ |
    ⟨result', hch', -, -, hev⟩⟩
  · exact absurd hpaid h
  · exact absurd h hs
  · simp [hch] at he
  obtain rfl : result = result' := by simpa [hch] using hch'
  refine ⟨chargeRequest env command o, ?_, rfl⟩
  rw [hev]
  simp

theorem Call.Loses.captures (h : c.Loses w o r t) : c.Captures w o r t := by
  rcases h with ⟨env, command, result, rfl, hch, ht, -⟩ | ⟨hlate, -⟩ | ⟨hignored, -⟩
  · exact .inl ⟨result, hch, ht⟩
  · cases c with
    | handlePaymentWebhook env self payload =>
      obtain ⟨hseen, hs, hp, he, ht⟩ := hlate
      refine .inr ⟨env, self, payload, rfl, hp, ht, ?_⟩
      simp only [effect, Effect.map, webhook, if_neg hseen, if_neg hs]
      obtain ⟨-, ⟨hp', -⟩ | ⟨-, -, -, -, a, ha⟩ | ⟨-, he', -⟩ | ⟨-, he', -⟩⟩ :=
        callback_cases env payload r hs
      · exact absurd hp hp'
      · exact ⟨.webhook a, by rw [ha]; rfl⟩
      · exact absurd he he'
      · exact absurd he he'
    | processPayment => exact hlate.elim
    | initiateCheckout => exact hlate.elim
    | expire => exact hlate.elim
    | compensateOrder => exact hlate.elim
    | retryCompensation => exact hlate.elim
  · cases c with
    | handlePaymentWebhook env self payload =>
      obtain ⟨hp, ht, h⟩ := hignored
      refine .inr ⟨env, self, payload, rfl, hp, ht, ?_⟩
      simp only [effect, Effect.map, webhook]
      split_ifs with hseen hs
      · exact ⟨_, rfl⟩
      · exact ⟨_, rfl⟩
      · exact absurd h (not_or.2 ⟨hseen, hs⟩)
    | processPayment => exact hignored.elim
    | initiateCheckout => exact hignored.elim
    | expire => exact hignored.elim
    | compensateOrder => exact hignored.elim
    | retryCompensation => exact hignored.elim

theorem Call.Confirms.confirmable (h : c.Confirms w o r) : o.Confirmable := by
  cases c with
  | processPayment => exact h.2.1
  | handlePaymentWebhook => exact h.2.2.1
  | initiateCheckout => exact h.elim
  | expire => exact h.elim
  | compensateOrder => exact h.elim
  | retryCompensation => exact h.elim

/-- A call that confirms its order and its reservation asks for no refund. -/
theorem Call.Confirms.not_refunded (h : c.Confirms w o r) (hcan : r.CanConfirm c.checkAt) :
    ¬ RefundedIn (c.effect w o r).events t := by
  cases c with
  | initiateCheckout => exact h.elim
  | expire => exact h.elim
  | compensateOrder => exact h.elim
  | retryCompensation => exact h.elim
  | handlePaymentWebhook env self payload => exact webhook_not_refunded env _ payload o r
  | processPayment env command =>
    obtain ⟨hpaid, hcon, hiss, result, hch, hres, -⟩ := h
    have hs : o.status ≠ .confirmed := by
      rcases hcon with h | h | h <;> simp [h]
    rcases payment_cases env command o r with ⟨-, -, -, h | h⟩ | ⟨-, -, ⟨⟨e, he⟩, -⟩ |
      ⟨result', hch', -, -, hev⟩⟩
    · exact absurd hpaid h
    · exact absurd h hs
    · simp [hch] at he
    obtain rfl : result = result' := by simpa [hch] using hch'
    rw [charged, hres] at hev
    rcases fulfilment_cases env result r (retried_ne_confirmed hs env command result) with
      ⟨-, -, -, -, -, hev'⟩ | ⟨o₁, cause, pre, -, ho₁, -⟩
    · simp only [hev'] at hev
      refine not_refundedIn ?_
      rw [show (Call.effect w o r (.processPayment env command)).events = _ from hev]
      simp
    · rcases ho₁ with ⟨-, hno⟩ | ⟨-, -, -, hcan'⟩
      · exact absurd ⟨hiss, Order.confirmable_attempted.2 hcon⟩ hno
      · exact absurd hcan hcan'

end LaunchPad
