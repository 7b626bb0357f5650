import LaunchPad.Proofs.Refunds

/-!
# Payments and compensations that are repeated

A payment under a key looks at the first attempt under it only, and a compensation that is repeated
chooses its transaction anew from what the order records. The bill of an order (`SameBill`) is what
both go by: its amount never changes, and its payment attempts only by a charge that was answered.
From this follow when a paid key is answered as paid (`paid_key_replayed_iff`), and when a retry
refunds what was asked for last (`retry_targets_iff`).
-/

namespace LaunchPad

open Interleave Rows

variable {w w' : World} {o o' : Order} {r : Reservation} {c : Call}

/-! ## The bill of an order -/

/-- The same amount, and the same attempts at paying it. -/
structure Order.SameBill (o o' : Order) : Prop where
  attempts : o'.paymentAttempts = o.paymentAttempts
  amount : o'.totalAmount = o.totalAmount

theorem Order.sameBill_settled (o : Order) (env : CompensationEnv) (res : RefundResult) :
    o.SameBill (o.settled env res) := by
  rcases res with ⟨_ | _ | _, t, m⟩ <;> exact ⟨rfl, rfl⟩

theorem compensation_sameBill (env : CompensationEnv) (x : Option String)
    (reason : CompensationReason) (o : Order) (r : Reservation) :
    o.SameBill (compensation env x reason o r).order := by
  rcases compensation_cases env x reason o r with ⟨ho, -⟩ | ⟨r', -, -, -, ⟨-, -, ⟨-, ho⟩ | ⟨-, ho⟩⟩ |
    ⟨t, -, ⟨-, ho, -⟩ | ⟨res, -, ho, -⟩⟩⟩ <;> rw [ho]
  · exact ⟨rfl, rfl⟩
  · exact ⟨rfl, rfl⟩
  · exact ⟨rfl, rfl⟩
  · exact ⟨rfl, rfl⟩
  · exact o.sameBill_settled env res

theorem fulfilment_sameBill (env : PaymentEnv) (result : ChargeResult) (r : Reservation)
    (hs : o.status ≠ .confirmed) : o.SameBill (fulfilment env result o r).order := by
  rcases fulfilment_cases env result r hs with ⟨-, -, -, ho, -⟩ |
    ⟨o₁, cause, pre, -, ⟨rfl, -⟩ | ⟨rfl, -⟩, ho, -⟩ <;> rw [ho]
  · exact ⟨rfl, rfl⟩
  · exact compensation_sameBill _ _ _ _ _
  · have h := compensation_sameBill env.compensation result.transactionId (.fulfillment cause)
      (o.confirmedBy result.transactionId env.confirmAt) r
    exact ⟨h.attempts, h.amount⟩

theorem Order.attempted_amount (o : Order) (env : PaymentEnv) (command : ProcessPaymentCommand)
    (result : ChargeResult) : (o.attempted env command result).totalAmount = o.totalAmount := by
  have h : o.retried.totalAmount = o.totalAmount := by
    unfold retried
    split_ifs <;> rfl
  rcases result with ⟨_ | _ | _ | _, t, m⟩ <;> exact h

theorem Order.attempted_not_confirmed {env : PaymentEnv} {command : ProcessPaymentCommand}
    {result : ChargeResult} (hs : o.status ≠ .confirmed) :
    (o.attempted env command result).status ≠ .confirmed := by
  rw [attempted_status, retried_status]
  split_ifs
  · simp
  · exact hs

/-- What follows the gateway's answer leaves the bill with the attempt. -/
theorem charged_sameBill (env : PaymentEnv) (command : ProcessPaymentCommand) (result : ChargeResult)
    (r : Reservation) (hs : o.status ≠ .confirmed) :
    (o.attempted env command result).SameBill (charged env command result o r).order := by
  by_cases h : result.status = .success
  · have heq : (charged env command result o r).order
        = (fulfilment env result (o.attempted env command result) r).order := by
      simp [charged, h]
    rw [heq]
    exact fulfilment_sameBill _ _ _ (Order.attempted_not_confirmed hs)
  · obtain ⟨-, -, -, ho | ⟨-, ho⟩⟩ := charged_unpaid env command o r h <;> rw [ho] <;>
      exact ⟨rfl, rfl⟩

/-- The call charges the order, and the gateway answers. -/
def Call.AnsweredCharge (o : Order) (key : String) (result : ChargeResult) : Call → Prop
  | .processPayment env command => command.idempotencyKey = key ∧ o.paidAttempt key = none
      ∧ o.status ≠ .confirmed ∧ env.charge = .ok result
  | _ => False

/-- The bill after a call: as it was, or with one more attempt. -/
theorem Call.effect_bill (c : Call) (w : World) (o : Order) (r : Reservation) :
    let o' := (c.effect w o r).order
    o'.totalAmount = o.totalAmount ∧ (o'.paymentAttempts = o.paymentAttempts
      ∨ ∃ key result a, c.AnsweredCharge o key result
        ∧ o'.paymentAttempts = o.paymentAttempts ++ [a] ∧ a.idempotencyKey = key
        ∧ (a.status = .success ↔ result.status = .success)) := by
  cases c with
  | initiateCheckout => exact ⟨rfl, .inl rfl⟩
  | expire => exact ⟨rfl, .inl rfl⟩
  | compensateOrder env id x reason =>
    have h := compensation_sameBill env x reason o r
    exact ⟨h.amount, .inl h.attempts⟩
  | retryCompensation env id =>
    have h := compensation_sameBill env none .retry o r
    simp only [effect]
    split_ifs
    · exact ⟨rfl, .inl rfl⟩
    · exact ⟨h.amount, .inl h.attempts⟩
  | handlePaymentWebhook env self payload =>
    simp only [effect, Effect.map, webhook]
    split_ifs with hseen hc
    · exact ⟨rfl, .inl rfl⟩
    · exact ⟨rfl, .inl rfl⟩
    · obtain ⟨-, ⟨-, -, -, ho | ⟨-, ho⟩⟩ | ⟨-, -, ho, -⟩ | ⟨-, -, -, ho, -⟩ | ⟨-, -, -, ho, -⟩⟩ :=
        callback_cases env payload r hc <;> rw [ho] <;> exact ⟨rfl, .inl rfl⟩
  | processPayment env command =>
    simp only [effect, Effect.map]
    rcases payment_cases env command o r with ⟨ho, -⟩ | ⟨hnone, hs, ⟨-, ho, -⟩ |
      ⟨result, hcharge, ho, -⟩⟩ <;> rw [ho]
    · exact ⟨rfl, .inl rfl⟩
    · unfold Order.retried
      split_ifs <;> exact ⟨rfl, .inl rfl⟩
    · have h := charged_sameBill env command result r hs
      obtain ⟨a, hattempts, hkey, hsuccess⟩ := o.attempted_snoc env command result
      refine ⟨h.amount.trans (o.attempted_amount env command result), .inr ?_⟩
      exact ⟨command.idempotencyKey, result, a, ⟨rfl, hnone, hs, hcharge⟩,
        h.attempts.trans hattempts, hkey, hsuccess⟩

/-! ## Paid keys -/

/-- A SUCCESS attempt under the key. -/
def PaymentAttempt.Paid (a : PaymentAttempt) (key : String) : Prop :=
  a.idempotencyKey = key ∧ a.status = .success

instance (a : PaymentAttempt) (key : String) : Decidable (a.Paid key) :=
  inferInstanceAs (Decidable (_ ∧ _))

/-- The charges the gateway was asked for, in their order. -/
def chargeRequests (log : List PortEvent) : List ChargeRequest :=
  log.filterMap fun
    | .chargeRequested q => some q
    | _ => none

/-- If the call is a payment under a key that the order has been paid under, it asks for no charge
and is answered with the transaction of that attempt, as already processed. -/
def Call.Replays (c : Call) (w : World) : Prop :=
  ∀ env command o a, c = .processPayment env command → w.orders.get command.orderId = some o →
    a ∈ o.paymentAttempts → a.Paid command.idempotencyKey →
      ∃ b w', c.run w = some (.ok (.payment b), w') ∧ chargeRequests w'.log = chargeRequests w.log
        ∧ b.alreadyProcessed = true ∧ b.transactionId = a.providerTransactionId

/-- No order has two SUCCESS attempts under one key. -/
def World.PaidOnce (w : World) : Prop :=
  ∀ id o key, w.orders.get id = some o → (o.paymentAttempts.filter (·.Paid key)).length ≤ 1

/-- The call is a payment under a key that the order has been paid under, but not at the first
attempt, and the order is not CONFIRMED with that attempt's transaction. -/
def Call.OverlooksPaid (c : Call) (w : World) : Prop :=
  ∃ env command o a, c = .processPayment env command ∧ w.orders.get command.orderId = some o
    ∧ a ∈ o.paymentAttempts ∧ a.Paid command.idempotencyKey
    ∧ o.paidAttempt command.idempotencyKey = none
    ∧ ¬ (o.status = .confirmed ∧ o.providerTransactionId = a.providerTransactionId)

theorem Order.mem_of_paidAttempt {key : String} {b : PaymentAttempt}
    (h : o.paidAttempt key = some b) : b ∈ o.paymentAttempts ∧ b.Paid key := by
  rw [paidAttempt, Option.filter_eq_some_iff] at h
  obtain ⟨hfind, hstatus⟩ := h
  have hkey := List.find?_some hfind
  exact ⟨List.mem_of_find?_eq_some hfind, by simpa using hkey, by simpa using hstatus⟩

theorem World.PaidOnce.eq (h : w.PaidOnce) {id key : String} (ho : w.orders.get id = some o)
    {a b : PaymentAttempt} (ha : a ∈ o.paymentAttempts) (hpa : a.Paid key)
    (hb : b ∈ o.paymentAttempts) (hpb : b.Paid key) : a = b := by
  have ha' : a ∈ o.paymentAttempts.filter (·.Paid key) := List.mem_filter.2 ⟨ha, by simpa using hpa⟩
  have hb' : b ∈ o.paymentAttempts.filter (·.Paid key) := List.mem_filter.2 ⟨hb, by simpa using hpb⟩
  have hlen := h id o key ho
  rcases hf : o.paymentAttempts.filter (·.Paid key) with _ | ⟨x, _ | ⟨y, l⟩⟩ <;>
    rw [hf] at ha' hb' hlen
  · simp at ha'
  · rw [List.mem_singleton.1 ha', List.mem_singleton.1 hb']
  · simp at hlen

/-- A payment that charges the order asks the gateway for it. -/
theorem chargeRequests_payment {env : PaymentEnv} {command : ProcessPaymentCommand}
    (hnone : o.paidAttempt command.idempotencyKey = none) (hs : o.status ≠ .confirmed)
    (log : List PortEvent) :
    chargeRequests (log ++ (payment env command o r).events) ≠ chargeRequests log := by
  have hreq : ∃ rest, (payment env command o r).events
      = .chargeRequested (chargeRequest env command o) :: rest := by
    rcases payment_cases env command o r with ⟨-, -, -, hpaid | hc⟩ | ⟨-, -, ⟨-, -, -, hev⟩ |
      ⟨result, -, -, -, hev⟩⟩
    · exact absurd hnone hpaid
    · exact absurd hc hs
    · exact ⟨_, hev⟩
    · exact ⟨_, hev⟩
  obtain ⟨rest, hrest⟩ := hreq
  intro h
  rw [hrest, chargeRequests, chargeRequests, List.filterMap_append] at h
  simpa using congrArg List.length h

/-- A paid key is answered as paid unless its payment overlooks that. -/
theorem replays_iff (hl : w.Linked) (hone : w.PaidOnce) : c.Replays w ↔ ¬ c.OverlooksPaid w := by
  constructor
  · rintro hreplays ⟨env, command, o, a, rfl, ho, ha, hpaid, hnone, hnot⟩
    obtain ⟨b, w', hrun, hcharges, -, htxn⟩ := hreplays env command o a rfl ho ha hpaid
    obtain ⟨r, hr⟩ := hl _ o ho
    obtain ⟨hreply, hleaves⟩ := Call.run_eq_effect hrun rfl ho hr
    by_cases hs : o.status = .confirmed
    · simp only [Call.effect, Effect.map, payment, hnone, hs, if_true, Except.map, Except.ok.injEq,
        Reply.payment.injEq] at hreply
      rw [hreply] at htxn
      exact hnot ⟨hs, htxn⟩
    · rw [hleaves.log] at hcharges
      exact chargeRequests_payment hnone hs w.log hcharges
  · intro hnot env command o a hc ho ha hpaid
    subst hc
    obtain ⟨r, hr⟩ := hl _ o ho
    obtain ⟨w', hrun, hleaves⟩ := Call.run_effect (c := .processPayment env command) rfl ho hr
    have hlog : (payment env command o r).events = [] → w'.log = w.log := by
      intro hev
      rw [hleaves.log]
      simp [Call.effect, Effect.map, hev]
    rcases hp : o.paidAttempt command.idempotencyKey with _ | b
    · have hconf : o.status = .confirmed ∧ o.providerTransactionId = a.providerTransactionId := by
        by_contra hno
        exact hnot ⟨env, command, o, a, rfl, ho, ha, hpaid, hp, hno⟩
      have hres : (payment env command o r).result = .ok ⟨true, .confirmed, o.providerTransactionId,
          false, false, true, some (.text "Order already confirmed")⟩ := by
        simp only [payment, hp, if_pos hconf.1]
      simp only [Call.effect, Effect.map, hres, Except.map] at hrun
      refine ⟨_, w', hrun, ?_, rfl, hconf.2⟩
      rw [hlog (by simp only [payment, hp, if_pos hconf.1])]
    · obtain ⟨hb, hpb⟩ := o.mem_of_paidAttempt hp
      obtain rfl := hone.eq ho ha hpaid hb hpb
      have hres : (payment env command o r).result = .ok ⟨true, o.status, a.providerTransactionId,
          false, false, true,
          some (.text "Payment already successfully processed for this idempotency key")⟩ := by
        simp only [payment, hp]
      simp only [Call.effect, Effect.map, hres, Except.map] at hrun
      refine ⟨_, w', hrun, ?_, rfl, rfl⟩
      rw [hlog (by simp only [payment, hp])]

theorem paidOnce_step (hl : w.Linked) (hone : w.PaidOnce) (hnot : ¬ c.OverlooksPaid w)
    {reply : Except WorkflowError Reply} (h : c.run w = some (reply, w')) : w'.PaidOnce := by
  intro id o' key ho'
  rcases Call.order_cases hl h ho' with ho | ⟨o, r, hc, ho, hr, -, rfl⟩ | ⟨uid, r, amount, -, -, rfl⟩
  · exact hone id o' key ho
  · rcases (c.effect_bill w o r).2 with hsame | ⟨key', result, a, hcharge, hattempts, hkey, -⟩
    · rw [hsame]
      exact hone id o key ho
    · rw [hattempts, List.filter_append, List.length_append]
      by_cases hpaid : a.Paid key
      · -- had the key been paid before, the charge would have overlooked it
        have hnil : o.paymentAttempts.filter (·.Paid key) = [] := by
          rw [List.filter_eq_nil_iff]
          intro b hb hpb
          cases c with
          | processPayment env command =>
            obtain ⟨rfl, hnone, hs, -⟩ := hcharge
            obtain rfl := hkey.symm.trans hpaid.1
            obtain rfl := Option.some.inj hc
            exact hnot ⟨env, command, o, b, rfl, ho, hb, by simpa using hpb, hnone, fun h => hs h.1⟩
          | _ => exact hcharge.elim
        simp [hnil, hpaid]
      · have := hone id o key ho
        simpa [hpaid] using this
  · simp [Order.ofReservation]

/-- In every run: once an order is paid under a key, every payment under it is answered with that
transaction and asks for no charge, and no order is paid twice under a key, if and only if no
payment overlooks that its key is paid. -/
theorem paid_key_replayed_iff {w₀ : World} (h₀ : w₀.Initial) {steps : List Step}
    (h : Run w₀ steps w) :
    ((∀ s ∈ steps, s.call.Replays s.before ∧ s.before.PaidOnce) ∧ w.PaidOnce)
      ↔ ∀ s ∈ steps, ¬ s.call.OverlooksPaid s.before := by
  induction h with
  | nil =>
    refine iff_of_true ⟨by simp, fun id o key ho => ?_⟩ (by simp)
    simp [h₀.orders] at ho
  | @snoc steps w₁ w₂ reply hrun c hc ih =>
    have hl := hrun.linked (linked_of_initial h₀)
    simp only [List.forall_mem_append, List.forall_mem_singleton]
    constructor
    · rintro ⟨⟨hsteps, hreplays, hone⟩, -⟩
      exact ⟨ih.1 ⟨hsteps, hone⟩, (replays_iff hl hone).1 hreplays⟩
    · rintro ⟨hsteps, hnot⟩
      obtain ⟨hall, hone⟩ := ih.2 hsteps
      exact ⟨⟨hall, (replays_iff hl hone).2 hnot, hone⟩, paidOnce_step hl hone hnot hc⟩

/-- The first charge under the key times out; the second goes through, no ticket is issued, and it is
refunded. -/
def paidSecond : List Call :=
  [checkoutAt 1 orderA, payAt 2 "a" "k1" ⟨.timeout, none, none⟩,
    .processPayment ⟨"payment", .ok ⟨.success, some "t1", none⟩, .error (.external (some "down")), 3, 3,
      3, 3, refundAt 3⟩ ⟨"a", "card", "k1", none⟩]

/-- And a third payment under it. -/
def paidThird : List Call := paidSecond ++ [payAt 4 "a" "k1" ⟨.success, some "t2", none⟩]

theorem paidThird_isSome : (runCalls [] heldWorld paidThird).isSome := by decide

theorem paidThird_twice :
    ¬ ((runCalls [] heldWorld paidThird).get paidThird_isSome).2.PaidOnce := by
  intro hone
  have hpaid : (((runCalls [] heldWorld paidThird).get paidThird_isSome).2.orders.get "a").map
      (fun o => (o.paymentAttempts.filter (·.Paid "k1")).length) = some 2 := by decide
  obtain ⟨o, ho, hlen⟩ := Option.map_eq_some_iff.1 hpaid
  have := hone "a" o "k1" ho
  omega

theorem paid_key_replayed_third :
    ∃ steps w, Run heldWorld steps w ∧ ∃ s ∈ steps, s.call.OverlooksPaid s.before := by
  obtain ⟨hrun, -⟩ := run_runCalls paidThird_isSome
  refine ⟨_, _, hrun, ?_⟩
  by_contra hno
  have hok := (paid_key_replayed_iff heldWorld_initial hrun).2 fun s hs hbad => hno ⟨s, hs, hbad⟩
  exact paidThird_twice hok.2

/-- The order is charged again under a key it was paid under. -/
theorem key_paid_twice :
    heldWorld.Initial ∧ ∃ steps w, Run heldWorld steps w ∧ ¬ w.PaidOnce := by
  obtain ⟨hrun, -⟩ := run_runCalls paidThird_isSome
  exact ⟨heldWorld_initial, _, _, hrun, paidThird_twice⟩

/-! ## Refunds that are retried -/

/-- The refunds asked for the order, in their order. -/
def refundsAsked (log : List PortEvent) (orderId : String) : List RefundRequest :=
  (refundRequests log).filter (·.orderId = orderId)

/-- A retry asks for one refund, of the transaction and the amount of `last`; where it goes through
the order becomes CANCELLED_REFUNDED, and else it stays COMPENSATION_PENDING. -/
def RetryTargets (env : CompensationEnv) (id : String) (last : RefundRequest) (w : World) : Prop :=
  ∃ reply w' q o, (Call.retryCompensation env id).run w = some (reply, w')
    ∧ refundRequests w'.log = refundRequests w.log ++ [q] ∧ q.orderId = id
    ∧ q.transactionId = last.transactionId ∧ q.amount = last.amount
    ∧ w'.orders.get id = some o
    ∧ ((∃ res, env.refund = .ok res ∧ res.status = .success) → o.status = .cancelledRefunded)
    ∧ ((¬ ∃ res, env.refund = .ok res ∧ res.status = .success) → o.status = .compensationPending)

/-- An effect asks for refunds of the order's amount only, and leaves an order
COMPENSATION_PENDING only if it was or if it has asked for one. -/
structure Effect.Asks {α : Type} (o : Order) (e : Effect α) : Prop where
  bill : ∀ q, .refundRequested q ∈ e.events → q.orderId = o.id ∧ q.amount = o.totalAmount
  pending : e.order.status = .compensationPending → o.status = .compensationPending
    ∨ ∃ q, .refundRequested q ∈ e.events

theorem Effect.asks_of_none {α : Type} {e : Effect α} (hev : ∀ q, .refundRequested q ∉ e.events)
    (hs : e.order.status = .compensationPending → o.status = .compensationPending) : e.Asks o :=
  ⟨fun q hq => absurd hq (hev q), fun h => .inl (hs h)⟩

theorem compensation_asks (env : CompensationEnv) (x : Option String) (reason : CompensationReason)
    (o : Order) (r : Reservation) : (compensation env x reason o r).Asks o := by
  rcases compensation_cases env x reason o r with ⟨ho, -, hev, -⟩ | ⟨r', -, -, -,
    ⟨-, hev, ⟨-, ho⟩ | ⟨-, ho⟩⟩ | ⟨t, -, ⟨-, ho, hev⟩ | ⟨res, -, ho, hev⟩⟩⟩
  · exact Effect.asks_of_none (by simp [hev]) (by simp [ho])
  · exact Effect.asks_of_none (by simp [hev]) (by simp [ho])
  · exact Effect.asks_of_none (by simp [hev]) (by simp [ho])
  · refine ⟨fun q hq => ?_, fun _ => .inr ⟨_, by rw [hev]; exact List.mem_singleton_self _⟩⟩
    rw [hev, List.mem_singleton, PortEvent.refundRequested.injEq] at hq
    exact hq ▸ ⟨rfl, rfl⟩
  · refine ⟨fun q hq => ?_, fun _ => .inr ⟨_, by rw [hev]; exact List.mem_cons_self ..⟩⟩
    simp only [hev, List.mem_cons, PortEvent.refundRequested.injEq, reduceCtorEq, List.not_mem_nil,
      or_false] at hq
    exact hq ▸ ⟨rfl, rfl⟩

/-- The same order, some more traffic before, and an order that differs in nothing of this. -/
theorem Effect.Asks.of_append {α β : Type} {o₁ : Order} {e : Effect α} {e' : Effect β}
    (h : e.Asks o₁) (hid : o₁.id = o.id) (hamount : o₁.totalAmount = o.totalAmount)
    (hs : o₁.status = .compensationPending → o.status = .compensationPending) (pre : List PortEvent)
    (hpre : ∀ q, .refundRequested q ∉ pre) (hev : e'.events = pre ++ e.events)
    (ho : e'.order = e.order) : e'.Asks o := by
  refine ⟨fun q hq => ?_, fun hp => ?_⟩
  · rw [hev, List.mem_append] at hq
    rw [← hid, ← hamount]
    exact h.bill q (hq.resolve_left (hpre q))
  · rw [ho] at hp
    rcases h.pending hp with hp | ⟨q, hq⟩
    · exact .inl (hs hp)
    · exact .inr ⟨q, by rw [hev]; exact List.mem_append_right _ hq⟩

theorem fulfilment_asks (env : PaymentEnv) (result : ChargeResult) (r : Reservation)
    (hs : o.status ≠ .confirmed) : (fulfilment env result o r).Asks o := by
  rcases fulfilment_cases env result r hs with ⟨-, -, -, ho, -, hev⟩ |
    ⟨o₁, cause, pre, hpre, ho₁, ho, -, hev⟩
  · exact Effect.asks_of_none (by simp [hev]) (by simp [ho, Order.confirmedBy])
  · have h := compensation_asks env.compensation result.transactionId (.fulfillment cause) o₁ r
    have hpre' : ∀ q, .refundRequested q ∉ pre := fun q hq => by simpa using hpre _ hq
    rcases ho₁ with ⟨rfl, -⟩ | ⟨rfl, -⟩
    · exact h.of_append rfl rfl (fun h => h) pre hpre' hev ho
    · exact h.of_append rfl rfl (by simp [Order.confirmedBy]) pre hpre' hev ho

theorem charged_asks (env : PaymentEnv) (command : ProcessPaymentCommand) (result : ChargeResult)
    (r : Reservation) (hs : o.status ≠ .confirmed) : (charged env command result o r).Asks o := by
  have hne : (o.attempted env command result).status ≠ .confirmed :=
    Order.attempted_not_confirmed hs
  have hstatus : (o.attempted env command result).status = .compensationPending →
      o.status = .compensationPending := by
    rw [Order.attempted_status, Order.retried_status]
    split_ifs <;> simp
  by_cases h : result.status = .success
  · have hcharged : charged env command result o r
        = { fulfilment env result (o.attempted env command result) r with
          events := .ticketRequested o.id
            :: (fulfilment env result (o.attempted env command result) r).events } := by
      simp only [charged, h]
    rw [hcharged]
    exact (fulfilment_asks env result r hne).of_append (o.attempted_id env command result)
      (o.attempted_amount env command result) hstatus [.ticketRequested o.id] (by simp) rfl
      rfl
  · obtain ⟨hev, -, -, ho | ⟨-, ho⟩⟩ := charged_unpaid env command o r h
    · exact Effect.asks_of_none (by simp [hev]) (by rw [ho]; exact hstatus)
    · exact Effect.asks_of_none (by simp [hev]) (by simp [ho])

theorem Call.effect_asks (c : Call) (w : World) (o : Order) (r : Reservation) :
    (c.effect w o r).Asks o := by
  cases c with
  | initiateCheckout => exact Effect.asks_of_none (by simp [effect]) fun h => h
  | expire => exact Effect.asks_of_none (by simp [effect]) fun h => h
  | compensateOrder env id x reason =>
    exact (compensation_asks env x reason o r).of_append rfl rfl (fun h => h) [] (by simp) rfl
      rfl
  | retryCompensation env id =>
    simp only [effect]
    split_ifs
    · exact Effect.asks_of_none (by simp) fun h => h
    · exact (compensation_asks env none .retry o r).of_append rfl rfl (fun h => h) []
        (by simp) rfl rfl
  | handlePaymentWebhook env self payload =>
    simp only [effect, webhook]
    split_ifs with hseen hc
    · exact Effect.asks_of_none (by simp [Effect.map]) fun h => h
    · exact Effect.asks_of_none (by simp [Effect.map]) fun h => h
    · obtain ⟨hev, h⟩ := callback_cases env payload r hc
      refine Effect.asks_of_none (by simp [Effect.map, hev]) ?_
      rcases h with ⟨-, -, -, ho | ⟨-, ho⟩⟩ | ⟨-, -, ho, -⟩ | ⟨-, -, -, ho, -⟩ | ⟨-, -, -, ho, -⟩ <;>
        simp [Effect.map, ho, Order.markRefundRequired, Order.confirmedBy]
  | processPayment env command =>
    simp only [effect]
    rcases payment_cases env command o r with ⟨ho, -, hev, -⟩ | ⟨-, hs, ⟨-, ho, -, hev⟩ |
      ⟨result, -, ho, -, hev⟩⟩
    · exact Effect.asks_of_none (by simp [Effect.map, hev]) (by simp [Effect.map, ho])
    · refine Effect.asks_of_none (by simp [Effect.map, hev]) ?_
      simp only [Effect.map, ho, Order.retried_status]
      split_ifs <;> simp
    · exact (charged_asks env command result r hs).of_append rfl rfl (fun h => h)
        [.chargeRequested _, .chargeAnswered _ result] (by simp) hev ho

/-- Every refund asked for was of a stored order's amount, and one was asked for every order that is
COMPENSATION_PENDING. -/
structure World.Asked (w : World) : Prop where
  bill : ∀ q ∈ refundRequests w.log,
    ∃ o, w.orders.get q.orderId = some o ∧ q.amount = o.totalAmount
  pending : ∀ id o, w.orders.get id = some o → o.status = .compensationPending →
    ∃ q ∈ refundRequests w.log, q.orderId = id

theorem asked_of_initial (h : w.Initial) : w.Asked := by
  refine ⟨fun q hq => ?_, fun id o ho => ?_⟩
  · rw [mem_refundRequests, h.log] at hq
    simp at hq
  · simp [h.orders] at ho

/-- A call's effect keeps this, and so does a new order or the expiry of a reservation. -/
theorem asked_step (hl : w.Linked) (hasked : w.Asked) {reply : Except WorkflowError Reply}
    (h : c.run w = some (reply, w')) : w'.Asked := by
  rcases Call.cases hl h with ⟨hsame, -⟩ | ⟨id, o, r, hc, ho, hr, -, hw'⟩ |
    ⟨uid, r, amount, -, -, -, hfresh, rfl⟩ | ⟨r, -, -, -, rfl⟩
  · refine ⟨?_, ?_⟩
    · rw [hsame.log, hsame.orders]
      exact hasked.bill
    · rw [hsame.log, hsame.orders]
      exact hasked.pending
  · have hid : o.id = id := w.orders.get_key ho
    have hframe := c.effect_frame w o r
    have hasks := c.effect_asks w o r
    refine ⟨fun q hq => ?_, fun id' o' ho' hs => ?_⟩
    · have hmem := mem_refundRequests.1 hq
      rw [hw'.log, List.mem_append] at hmem
      rw [hw'.orders, Repository.get_save, hframe.id]
      rcases hmem with hmem | hmem
      · obtain ⟨o₁, ho₁, hamount⟩ := hasked.bill q (mem_refundRequests.2 hmem)
        split_ifs with hqid
        · rw [hqid, hid, ho] at ho₁
          obtain rfl := Option.some.inj ho₁
          exact ⟨_, rfl, hamount.trans (c.effect_bill w o r).1.symm⟩
        · exact ⟨o₁, ho₁, hamount⟩
      · obtain ⟨hqid, hamount⟩ := hasks.bill q hmem
        rw [if_pos hqid]
        exact ⟨_, rfl, hamount.trans (c.effect_bill w o r).1.symm⟩
    · rw [hw'.log, refundRequests_append]
      rcases hw'.get_order hframe ho' with ⟨rfl, rfl⟩ | ⟨-, ho'⟩
      · rcases hasks.pending hs with hs | ⟨q, hq⟩
        · obtain ⟨q, hq, hqid⟩ := hasked.pending o.id o (hid ▸ ho) hs
          exact ⟨q, List.mem_append_left _ hq, hqid⟩
        · exact ⟨q, List.mem_append_right _ (mem_refundRequests.2 hq), (hasks.bill q hq).1⟩
      · obtain ⟨q, hq, hqid⟩ := hasked.pending id' o' ho' hs
        exact ⟨q, List.mem_append_left _ hq, hqid⟩
  · refine ⟨fun q hq => ?_, fun id o ho hs => ?_⟩
    · obtain ⟨o, ho, hamount⟩ := hasked.bill q hq
      have hne : q.orderId ≠ (Order.ofReservation uid r amount).id := by
        intro heq
        rw [heq] at ho
        simp [Order.ofReservation, hfresh] at ho
      exact ⟨o, (Repository.get_save_of_ne hne).trans ho, hamount⟩
    · change (w.orders.save _).get id = some o at ho
      rw [Repository.get_save] at ho
      split_ifs at ho with hid
      · obtain rfl := Option.some.inj ho
        simp [Order.ofReservation] at hs
      · exact hasked.pending id o ho hs
  · exact ⟨hasked.bill, hasked.pending⟩

/-- What a retry does with an order that is COMPENSATION_PENDING: it asks for no refund, where the
reservation is CONFIRMED or the order records no transaction, or for that of the one it records. -/
theorem retry_cases (env : CompensationEnv) {id : String} (ho : w.orders.get id = some o)
    (hr : w.reservations.get o.reservationId = some r) (hs : o.status = .compensationPending) :
    ∃ reply w' o', (Call.retryCompensation env id).run w = some (reply, w')
      ∧ w'.orders.get id = some o'
      ∧ (refundRequests w'.log = refundRequests w.log
          ∧ (r.status = .confirmed ∨ o.refundTarget none = none)
        ∨ ∃ t, r.status ≠ .confirmed ∧ o.refundTarget none = some t
          ∧ refundRequests w'.log = refundRequests w.log ++ [refundRequest env .retry o t]
          ∧ ((∃ res, env.refund = .ok res ∧ res.status = .success) → o'.status = .cancelledRefunded)
          ∧ ((¬ ∃ res, env.refund = .ok res ∧ res.status = .success) →
            o'.status = .compensationPending)) := by
  obtain ⟨w', hrun, hleaves⟩ := Call.run_effect (c := .retryCompensation env id) rfl ho hr
  have heffect : (Call.retryCompensation env id).effect w o r
      = (compensation env none .retry o r).map .compensation := by simp [Call.effect, hs]
  rw [heffect] at hrun hleaves
  have hlog : refundRequests w'.log = refundRequests w.log
      ++ refundRequests (compensation env none .retry o r).events := by
    rw [hleaves.log, refundRequests_append]
    rfl
  have hget : w'.orders.get id = some (compensation env none .retry o r).order := by
    rw [hleaves.orders, ← w.orders.get_key ho, ← (compensation_frame env none .retry o r).id]
    exact Repository.get_save_self _ _
  refine ⟨_, w', _, hrun, hget, ?_⟩
  rcases compensation_cases env none .retry o r with ⟨-, -, hev, hend⟩ | ⟨r', hrel, -, -,
    ⟨ht, hev, -⟩ | ⟨t, ht, ⟨⟨e, he⟩, ho', hev⟩ | ⟨res, hres, ho', hev⟩⟩⟩ <;> rw [hev] at hlog
  · exact .inl ⟨hlog.trans (List.append_nil _), .inl (hend.resolve_left (by simp [hs]))⟩
  · exact .inl ⟨hlog.trans (List.append_nil _), .inr ht⟩
  · refine .inr ⟨t, fun hc => Reservation.not_released hc hrel, ht, hlog, ?_, fun _ => by rw [ho', hs]⟩
    rintro ⟨res, hres, -⟩
    simp [he] at hres
  · refine .inr ⟨t, fun hc => Reservation.not_released hc hrel, ht, hlog, ?_, fun hno => ?_⟩
    · rintro ⟨res', hres', hok⟩
      obtain rfl := Except.ok.inj (hres.symm.trans hres')
      rw [ho', Order.settled_status, if_pos hok]
    · rw [ho', Order.settled_status, if_neg fun hok => hno ⟨res, hres, hok⟩]

/-- In every state a run of calls leads to in which an order is COMPENSATION_PENDING, a refund has
been asked for it; and whatever the gateway does, a retry asks once for the refund asked for last,
and ends as the gateway answers, if and only if the reservation is not CONFIRMED and the transaction
the order records is that one. -/
theorem retry_targets_iff {w₀ : World} (h₀ : w₀.Initial) {steps : List Step} (h : Run w₀ steps w)
    {id : String} (ho : w.orders.get id = some o) (hs : o.status = .compensationPending) :
    ∃ r last, w.reservations.get o.reservationId = some r
      ∧ (refundsAsked w.log id).getLast? = some last
      ∧ ∀ env, RetryTargets env id last w
        ↔ r.status ≠ .confirmed ∧ o.refundTarget none = some last.transactionId := by
  obtain ⟨hl, hasked⟩ : w.Linked ∧ w.Asked :=
    h.invariant (I := fun w => w.Linked ∧ w.Asked)
      (fun hI hc => ⟨Call.linked hI.1 hc, asked_step hI.1 hI.2 hc⟩)
      ⟨linked_of_initial h₀, asked_of_initial h₀⟩
  obtain ⟨r, hr⟩ := hl _ o ho
  obtain ⟨q, hq, hqid⟩ := hasked.pending id o ho hs
  have hne : refundsAsked w.log id ≠ [] :=
    List.ne_nil_of_mem (List.mem_filter.2 ⟨hq, by simpa using hqid⟩)
  obtain ⟨last, hlast⟩ : ∃ last, (refundsAsked w.log id).getLast? = some last :=
    ⟨_, List.getLast?_eq_some_getLast hne⟩
  have hamount : last.amount = o.totalAmount := by
    obtain ⟨hmem, hlid⟩ := List.mem_filter.1 (List.mem_of_getLast? hlast)
    obtain ⟨o₁, ho₁, hamount⟩ := hasked.bill last hmem
    rw [of_decide_eq_true hlid, ho] at ho₁
    exact (Option.some.inj ho₁) ▸ hamount
  refine ⟨r, last, hr, hlast, fun env => ?_⟩
  obtain ⟨reply, w', o', hrun, hget, hcase⟩ := retry_cases env ho hr hs
  constructor
  · rintro ⟨reply', w'', q, o'', hrun', hq, -, htxn, -⟩
    rw [hrun, Option.some.injEq, Prod.mk.injEq] at hrun'
    obtain ⟨-, rfl⟩ := hrun'
    rcases hcase with ⟨hlog, -⟩ | ⟨t, hconf, ht, hlog, -⟩
    · rw [hlog] at hq
      simp at hq
    · rw [hlog, List.append_right_inj, List.cons.injEq] at hq
      rw [← hq.1] at htxn
      exact ⟨hconf, ht.trans (congrArg some htxn)⟩
  · rintro ⟨hconf, htarget⟩
    rcases hcase with ⟨-, hend | hend⟩ | ⟨t, -, ht, hlog, hsuccess, hfailure⟩
    · exact absurd hend hconf
    · simp [hend] at htarget
    · exact ⟨reply, w', _, o', hrun, hlog, w.orders.get_key ho,
        Option.some.inj (ht.symm.trans htarget), hamount.symm, hget, hsuccess, hfailure⟩

/-- A compensation that is given a transaction the order does not record, and whose refund fails. -/
def refundUnrecorded : List Call :=
  [checkoutAt 1 orderA,
    .compensateOrder ⟨"refund", .ok ⟨.failed, none, none⟩, 2⟩ "a" (some "t9") .downstreamFailed]

theorem refundUnrecorded_isSome : (runCalls [] heldWorld refundUnrecorded).isSome := by decide

/-- A payment whose tickets are not issued, and whose refund fails. -/
def refundFailed : List Call :=
  [checkoutAt 1 orderA,
    .processPayment ⟨"payment", .ok ⟨.success, some "t1", none⟩, .error (.external (some "down")), 2, 2,
      2, 2, ⟨"refund", .ok ⟨.failed, none, none⟩, 2⟩⟩ ⟨"a", "card", "k1", none⟩]

theorem refundFailed_isSome : (runCalls [] heldWorld refundFailed).isSome := by decide

theorem retry_targets_failed :
    ∃ steps w last, Run heldWorld steps w ∧ RetryTargets (refundAt 3) "a" last w := by
  obtain ⟨hrun, -⟩ := run_runCalls refundFailed_isSome
  have hstate : (((runCalls [] heldWorld refundFailed).get refundFailed_isSome).2.orders.get "a").map
      (fun o => (o.status, o.reservationId, o.refundTarget none))
        = some (.compensationPending, "r1", some "t1") := by decide
  have hasked : (refundsAsked ((runCalls [] heldWorld refundFailed).get refundFailed_isSome).2.log
      "a").getLast?.map (·.transactionId) = some "t1" := by decide
  have hhold : (((runCalls [] heldWorld refundFailed).get
      refundFailed_isSome).2.reservations.get "r1").map (·.status) = some .cancelled := by decide
  obtain ⟨o, ho, hstate⟩ := Option.map_eq_some_iff.1 hstate
  simp only [Prod.mk.injEq] at hstate
  obtain ⟨r, last, hr, hlast, hiff⟩ := retry_targets_iff heldWorld_initial hrun ho hstate.1
  refine ⟨_, _, last, hrun, (hiff _).2 ⟨?_, ?_⟩⟩
  · rw [hstate.2.1] at hr
    rw [hr, Option.map_some, Option.some.injEq] at hhold
    simp [hhold]
  · rw [hlast, Option.map_some, Option.some.injEq] at hasked
    rw [hstate.2.2, hasked]

/-- The retry asks for no refund, and cancels the order. -/
theorem retry_cancels_unrefunded :
    heldWorld.Initial ∧ ∃ steps w, Run heldWorld steps w
      ∧ (∃ o, w.orders.get "a" = some o ∧ o.status = .compensationPending)
      ∧ (∀ last, ¬ RetryTargets (refundAt 3) "a" last w)
      ∧ ∃ reply w' o, (Call.retryCompensation (refundAt 3) "a").run w = some (reply, w')
        ∧ w'.orders.get "a" = some o ∧ o.status = .cancelled ∧ w'.log = w.log := by
  obtain ⟨hrun, -⟩ := run_runCalls refundUnrecorded_isSome
  have hcancels : ∃ reply w' o, (Call.retryCompensation (refundAt 3) "a").run
      ((runCalls [] heldWorld refundUnrecorded).get refundUnrecorded_isSome).2 = some (reply, w')
        ∧ w'.orders.get "a" = some o ∧ o.status = .cancelled
        ∧ w'.log = ((runCalls [] heldWorld refundUnrecorded).get refundUnrecorded_isSome).2.log :=
    ⟨_, _, _, rfl, rfl, rfl, rfl⟩
  refine ⟨heldWorld_initial, _, _, hrun, ⟨_, rfl, rfl⟩, ?_, hcancels⟩
  obtain ⟨reply, w', o, hretry, -, -, hlog⟩ := hcancels
  rintro last ⟨reply', w'', q, o', hretry', hq, -⟩
  rw [hretry, Option.some.injEq, Prod.mk.injEq] at hretry'
  obtain ⟨-, rfl⟩ := hretry'
  rw [hlog] at hq
  simp at hq

end LaunchPad
