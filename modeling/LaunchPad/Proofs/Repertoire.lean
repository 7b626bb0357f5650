import LaunchPad.Methods
import LaunchPad.Lib.Noninterference

/-!
# What a call may do

Every segment of every call is a chain of the operations its repertoire lists. A property of the
stores that each of these keeps is kept by the whole call, wherever it is suspended.
-/

namespace LaunchPad

open Interleave Rows Relation
open Async (each_pure each_throw each_await each_bind each_tryCatch)

/-- The segment does nothing but what it may. -/
def Uses (may : Repertoire) (β : Type) (act : World → Option (β × World)) : Prop :=
  ∀ w b w', act w = some (b, w') → ReflTransGen may.Op w w'

section Segments

variable {may : Repertoire} {α β : Type}

theorem uses_pure (a : α) : Uses may _ (pure a : Segment α) := by
  intro w b w' h
  simp only [Sync.pure_apply, Option.some.injEq, Prod.mk.injEq] at h
  exact h.2 ▸ .refl

theorem uses_throw (e : WorkflowError) : Uses may _ (throw e : Segment α) := by
  intro w b w' h
  simp only [Sync.throw_apply, Option.some.injEq, Prod.mk.injEq] at h
  exact h.2 ▸ .refl

theorem uses_read (f : World → α) : Uses may _ (Sync.read f : Segment α) := by
  intro w b w' h
  simp only [Sync.read_apply, Option.some.injEq, Prod.mk.injEq] at h
  exact h.2 ▸ .refl

theorem uses_ofExcept (r : Except WorkflowError α) : Uses may _ (Sync.ofExcept r : Segment α) := by
  intro w b w' h
  simp only [Sync.ofExcept_apply, Option.some.injEq, Prod.mk.injEq] at h
  exact h.2 ▸ .refl

theorem uses_derefOrder (id : String) : Uses may _ (derefOrder id) := by
  intro w b w' h
  simp only [derefOrder, Option.map_eq_some_iff, Prod.mk.injEq] at h
  obtain ⟨o, -, -, rfl⟩ := h
  exact .refl

theorem uses_derefReservation (id : String) : Uses may _ (derefReservation id) := by
  intro w b w' h
  simp only [derefReservation, Option.map_eq_some_iff, Prod.mk.injEq] at h
  obtain ⟨r, -, -, rfl⟩ := h
  exact .refl

theorem uses_bind {x : Segment β} {f : β → Segment α} (hx : Uses may _ x)
    (hf : ∀ b, Uses may _ (f b)) : Uses may _ (x >>= f) := by
  intro w r w' h
  rcases Sync.bind_eq_some.1 h with ⟨a, w₁, h₁, h₂⟩ | ⟨e, h₁, -⟩
  · exact (hx w _ w₁ h₁).trans (hf a w₁ _ w' h₂)
  · exact hx w _ w' h₁

/-- What a method makes of the stored order is stored. -/
theorem mutateOrder_eq_some {id : String} {f : Order → Except WorkflowError Order} {w w' : World}
    {r : Except WorkflowError Unit} (h : mutateOrder id f w = some (r, w')) :
    ∃ o, w.orders.get id = some o ∧ o.id = id
      ∧ ((∃ e, f o = .error e ∧ r = .error e ∧ w' = w)
        ∨ ∃ o', f o = .ok o' ∧ r = .ok () ∧ w' = w.saveOrder o') := by
  rcases ho : w.orders.get id with _ | o
  · simp [mutateOrder, Sync.bind_apply, derefOrder, ho] at h
  · refine ⟨o, rfl, w.orders.get_key ho, ?_⟩
    rcases hf : f o with e | o' <;>
      simp only [mutateOrder, Sync.bind_apply, derefOrder, ho, hf, Option.map_some,
        Sync.ofExcept_apply, Sync.modify_apply, Option.some.injEq, Prod.mk.injEq] at h <;>
      obtain ⟨rfl, rfl⟩ := h
    · exact .inl ⟨e, rfl, rfl, rfl⟩
    · exact .inr ⟨o', rfl, rfl, rfl⟩

theorem mutateReservation_eq_some {id : String}
    {f : Reservation → Except WorkflowError Reservation} {w w' : World}
    {r : Except WorkflowError Unit} (h : mutateReservation id f w = some (r, w')) :
    ∃ v, w.reservations.get id = some v ∧ v.id = id
      ∧ ((∃ e, f v = .error e ∧ r = .error e ∧ w' = w)
        ∨ ∃ v', f v = .ok v' ∧ r = .ok () ∧ w' = w.saveReservation v') := by
  rcases hv : w.reservations.get id with _ | v
  · simp [mutateReservation, Sync.bind_apply, derefReservation, hv] at h
  · refine ⟨v, rfl, w.reservations.get_key hv, ?_⟩
    rcases hf : f v with e | v' <;>
      simp only [mutateReservation, Sync.bind_apply, derefReservation, hv, hf, Option.map_some,
        Sync.ofExcept_apply, Sync.modify_apply, Option.some.injEq, Prod.mk.injEq] at h <;>
      obtain ⟨rfl, rfl⟩ := h
    · exact .inl ⟨e, rfl, rfl, rfl⟩
    · exact .inr ⟨v', rfl, rfl, rfl⟩

theorem uses_mutateOrder {id : String} (m : OrderMethod) (hm : may.order m) :
    Uses may _ (mutateOrder id m.apply) := by
  intro w r w' h
  obtain ⟨o, ho, rfl, ⟨e, -, -, rfl⟩ | ⟨o', hf, -, rfl⟩⟩ := mutateOrder_eq_some h
  · exact .refl
  · exact .single (.order hm ho hf)

theorem uses_orderRepoSave (id : String) : Uses may _ (orderRepoSave id) := by
  intro w r w' h
  obtain ⟨o, ho, rfl, ⟨e, -, -, rfl⟩ | ⟨o', hf, -, rfl⟩⟩ := mutateOrder_eq_some h
  · exact .refl
  · obtain rfl := Except.ok.inj hf
    exact .single (.saveOrder ho)

theorem uses_mutateReservation {id : String} (m : ReservationMethod) (hm : may.reservation m) :
    Uses may _ (mutateReservation id m.apply) := by
  intro w r w' h
  obtain ⟨v, hv, rfl, ⟨e, -, -, rfl⟩ | ⟨v', hf, -, rfl⟩⟩ := mutateReservation_eq_some h
  · exact .refl
  · exact .single (.reservation hm hv hf)

theorem uses_reservationRepoSave (id : String) : Uses may _ (reservationRepoSave id) := by
  intro w r w' h
  obtain ⟨v, hv, rfl, ⟨e, -, -, rfl⟩ | ⟨v', hf, -, rfl⟩⟩ := mutateReservation_eq_some h
  · exact .refl
  · obtain rfl := Except.ok.inj hf
    exact .single (.saveReservation hv)

theorem uses_record {e : PortEvent} (he : may.event e) : Uses may _ (record e) := by
  intro w r w' h
  simp only [record, Sync.modify_apply, Option.some.injEq, Prod.mk.injEq] at h
  exact h.2 ▸ .single (.record he)

theorem uses_addEvent (self : ℕ) (eventId : String) : Uses may _ (addEvent self eventId) := by
  intro w r w' h
  simp only [addEvent, Sync.modify_apply, Option.some.injEq, Prod.mk.injEq] at h
  exact h.2 ▸ .single .addEvent

end Segments

/-! ## What methods keep -/

/-- A method keeps what identifies the order, and all but one keep the attempts. -/
theorem OrderMethod.frame {m : OrderMethod} {o o' : Order} (h : m.apply o = .ok o') :
    o'.id = o.id ∧ o'.reservationId = o.reservationId
      ∧ ((∀ a, m ≠ .recordPaymentAttempt a) → o'.paymentAttempts = o.paymentAttempts) := by
  cases m with
  | confirm t timestamp =>
    simp only [apply, Order.confirm] at h
    split_ifs at h <;> cases h <;> exact ⟨rfl, rfl, fun _ => rfl⟩
  | markPaymentDeclined =>
    simp only [apply, Order.markPaymentDeclined] at h
    split_ifs at h
    exact Except.ok.inj h ▸ ⟨rfl, rfl, fun _ => rfl⟩
  | retryPayment =>
    simp only [apply, Order.retryPayment] at h
    split_ifs at h
    exact Except.ok.inj h ▸ ⟨rfl, rfl, fun _ => rfl⟩
  | cancel =>
    simp only [apply, Order.cancel] at h
    split_ifs at h
    exact Except.ok.inj h ▸ ⟨rfl, rfl, fun _ => rfl⟩
  | recordPaymentAttempt a => exact Except.ok.inj h ▸ ⟨rfl, rfl, fun hm => absurd rfl (hm a)⟩
  | markRefundRequired t => exact Except.ok.inj h ▸ ⟨rfl, rfl, fun _ => rfl⟩
  | recordCompensationAttempt a => exact Except.ok.inj h ▸ ⟨rfl, rfl, fun _ => rfl⟩
  | markCompensationPending => exact Except.ok.inj h ▸ ⟨rfl, rfl, fun _ => rfl⟩
  | markCompensated t => exact Except.ok.inj h ▸ ⟨rfl, rfl, fun _ => rfl⟩

/-- The orders stay, with their reservations. -/
def KeepsLinks (w w' : World) : Prop :=
  ∀ id o, w.orders.get id = some o →
    ∃ o', w'.orders.get id = some o' ∧ o'.reservationId = o.reservationId

theorem keepsLinks_of_orders {w w' : World} (h : w'.orders = w.orders) : KeepsLinks w w' :=
  fun _ o ho => ⟨o, by rw [h, ho], rfl⟩

theorem keepsLinks_saveOrder {w : World} {o' : Order}
    (h : ∀ o, w.orders.get o'.id = some o → o'.reservationId = o.reservationId) :
    KeepsLinks w (w.saveOrder o') := by
  intro id o ho
  have hget : (w.saveOrder o').orders.get id = if id = o'.id then some o' else w.orders.get id :=
    Repository.get_save _ o' id
  rw [hget]
  split_ifs with hid
  · exact ⟨o', rfl, h o (hid ▸ ho)⟩
  · exact ⟨o, ho, rfl⟩

theorem Repertoire.Op.keepsLinks {may : Repertoire} {w w' : World} (h : may.Op w w') :
    KeepsLinks w w' := by
  cases h with
  | order hm ho h =>
    obtain ⟨hid, hrid, -⟩ := OrderMethod.frame h
    refine keepsLinks_saveOrder fun o₁ ho₁ => ?_
    rw [hid] at ho₁
    rw [hrid, Option.some.inj (ho.symm.trans ho₁)]
  | saveOrder ho =>
    refine keepsLinks_saveOrder fun o₁ ho₁ => ?_
    rw [Option.some.inj (ho.symm.trans ho₁)]
  | newOrder hfresh =>
    refine keepsLinks_saveOrder fun o₁ ho₁ => ?_
    cases hfresh.symm.trans ho₁
  | reservation hm hr h => exact keepsLinks_of_orders rfl
  | saveReservation hr => exact keepsLinks_of_orders rfl
  | record he => exact keepsLinks_of_orders rfl
  | addEvent => exact keepsLinks_of_orders rfl

theorem keepsLinks_of_uses {may : Repertoire} {β : Type} {act : World → Option (β × World)}
    (h : Uses may β act) {w w' : World} {b : β} (hact : act w = some (b, w')) :
    KeepsLinks w w' := by
  have hops := h w b w' hact
  clear hact
  induction hops with
  | refl => exact keepsLinks_of_orders rfl
  | tail _ hop ih =>
    intro id o ho
    obtain ⟨o₁, ho₁, hrid₁⟩ := ih id o ho
    obtain ⟨o₂, ho₂, hrid₂⟩ := hop.keepsLinks id o₁ ho₁
    exact ⟨o₂, ho₂, hrid₂.trans hrid₁⟩

/-! ## The calls -/

section Calls

variable {may : Repertoire} {α : Type}

theorem each_orNotFound (text id : String) (found : Option α) :
    (orNotFound text id found).Each (Uses may) := by
  cases found with
  | none => exact each_throw _
  | some a => exact each_pure a

theorem uses_createOrder (env : CheckoutEnv) (command : InitiateCheckoutCommand) :
    Uses may _ (createOrder env command) := by
  refine uses_bind (uses_derefReservation _) fun r w b w' h => ?_
  by_cases hfresh : w.orders.get env.orderId.val = none
  · simp only [Sync.bind_apply, Sync.waitFor, if_pos hfresh, Sync.modify_apply, Sync.pure_apply,
      Option.some.injEq, Prod.mk.injEq] at h
    exact h.2 ▸ .single (.newOrder hfresh)
  · simp [Sync.bind_apply, Sync.waitFor, if_neg hfresh] at h

theorem each_initiateCheckout (env : CheckoutEnv) (command : InitiateCheckoutCommand) :
    (initiateCheckout env command).Each (Uses may) := by
  refine each_bind (each_await (uses_read _)) fun _ => each_bind (each_orNotFound _ _ _) fun _ => ?_
  refine each_bind (each_await ?_) fun _ => each_await (uses_createOrder env command)
  refine uses_bind (uses_derefReservation _) fun r => ?_
  split_ifs
  · exact uses_throw _
  · exact uses_bind (uses_mutateReservation (.startPayment env.now env.later) trivial) fun _ =>
      uses_reservationRepoSave _

theorem uses_lookUpHold (oid rid : String) : Uses may _ (lookUpHold oid rid) := by
  refine uses_bind (uses_derefOrder _) fun o => ?_
  split_ifs
  · exact uses_pure _
  · exact uses_bind (uses_read _) fun _ => uses_pure _

theorem uses_releaseHold (found : Option Reservation) : Uses may _ (releaseHold found) := by
  rcases found with _ | r
  · exact uses_pure _
  refine uses_bind (uses_derefReservation _) fun r => ?_
  split_ifs
  · exact uses_bind (uses_mutateReservation .cancel trivial) fun _ =>
      uses_bind (uses_reservationRepoSave _) fun _ => uses_pure _
  · exact uses_pure _

theorem uses_requestRefund (env : CompensationEnv) (oid : String) (x : Option String)
    (reason : CompensationReason) : Uses may _ (requestRefund env oid x reason) := by
  refine uses_bind (uses_derefOrder _) fun o => ?_
  rcases o.refundTarget x with _ | t
  · exact uses_bind (uses_mutateOrder .cancel trivial) fun _ =>
      uses_bind (uses_orderRepoSave _) fun _ => uses_pure _
  · exact uses_bind (uses_record trivial) fun _ => uses_pure _

theorem uses_settleRefund (env : CompensationEnv) (n : ℕ) (request : RefundRequest) :
    Uses may _ (settleRefund env n request) := by
  refine uses_bind (uses_ofExcept _) fun res => uses_bind (uses_record trivial) fun _ => ?_
  have hsettle : ∀ (a : CompensationAttempt) (m : OrderMethod) (answer : CompensationResult),
      may.order m → Uses may _ (do
        mutateOrder request.orderId (OrderMethod.recordCompensationAttempt a).apply
        mutateOrder request.orderId m.apply
        orderRepoSave request.orderId
        pure answer : Segment CompensationResult) := by
    intro a m answer hm
    exact uses_bind (uses_mutateOrder _ trivial) fun _ => uses_bind (uses_mutateOrder m hm)
      fun _ => uses_bind (uses_orderRepoSave _) fun _ => uses_pure _
  rcases res with ⟨_ | _ | _, t, m⟩
  · exact hsettle _ (.markCompensated t) _ trivial
  · exact hsettle _ .markCompensationPending _ trivial
  · exact hsettle _ .markCompensationPending _ trivial

/-- A compensation from where it knows what it asks for. -/
def settleRequested (env : CompensationEnv) : Option (ℕ × RefundRequest) → Flow CompensationResult
  | none => pure ⟨true, .compensated, .cancelled, none, none⟩
  | some (attemptNumber, request) => Async.await (settleRefund env attemptNumber request)

theorem each_compensateOrder (env : CompensationEnv) (oid : String) (x : Option String)
    (reason : CompensationReason) : (compensateOrder env oid x reason).Each (Uses may) := by
  have hrest : ∀ requested, (settleRequested env requested).Each (Uses may) := by
    rintro (_ | ⟨n, q⟩)
    · exact each_pure _
    · exact each_await (uses_settleRefund env n q)
  refine each_bind (each_await (uses_read _)) fun _ => each_bind (each_orNotFound _ _ _) fun o => ?_
  refine each_bind (each_await (uses_lookUpHold oid _)) fun found => ?_
  rcases found with answer | res
  · exact each_pure _
  refine each_bind (each_await ?_) fun requested => ?_
  · refine uses_bind (uses_releaseHold res) fun released => ?_
    split_ifs
    · exact uses_pure _
    · exact uses_bind (uses_requestRefund env oid x reason) fun _ => uses_pure _
  · rcases requested with _ | requested
    · exact each_bind (each_await (uses_requestRefund env oid x reason)) hrest
    · exact hrest requested

theorem each_retryCompensation (env : CompensationEnv) (oid : String) :
    (retryCompensation env oid).Each (Uses may) := by
  refine each_bind (each_await (uses_read _)) fun _ => each_bind (each_orNotFound _ _ _) fun o => ?_
  refine each_bind (each_await ?_) fun _ => each_compensateOrder env oid none .retry
  refine uses_bind (uses_derefOrder _) fun o => ?_
  split_ifs
  · exact uses_throw _
  · exact uses_pure _

theorem uses_declineOrder (oid rid : String) (now : Time) {tail : Segment Unit}
    (htail : Uses may _ tail) : Uses may _ (declineOrder oid rid now tail) := by
  refine uses_bind (uses_mutateOrder .markPaymentDeclined trivial) fun _ =>
    uses_bind (uses_derefReservation _) fun r => ?_
  split_ifs
  · exact uses_bind (uses_mutateReservation .revertPaymentDecline trivial) fun _ =>
      uses_bind (uses_reservationRepoSave _) fun _ => uses_pure _
  · exact uses_bind htail fun _ => uses_pure _

theorem uses_confirmBoth (env : PaymentEnv) (oid rid : String) (t : Option String)
    (hc : may.confirmsAt = some env.checkAt) : Uses may _ (confirmBoth env oid rid t) :=
  uses_bind (uses_ofExcept _) fun _ => uses_bind (uses_record trivial) fun _ =>
    uses_bind (uses_mutateOrder (.confirm t env.confirmAt) trivial) fun _ =>
      uses_bind (uses_mutateReservation (.confirm env.checkAt env.later) hc) fun _ =>
        uses_reservationRepoSave _

theorem each_postPaymentFailure (env : PaymentEnv) (oid : String) (t : Option String)
    (cause : WorkflowError) : (postPaymentFailure env oid t cause).Each (Uses may) :=
  each_bind (each_await (uses_orderRepoSave _)) fun _ =>
    each_bind (each_compensateOrder _ _ _ _) fun _ => each_pure _

theorem uses_recordCharge (env : PaymentEnv) (n : ℕ) (request : ChargeRequest)
    (result : ChargeResult) (st : PaymentStatus) (t reason : Option String) (hm : may.charges) :
    Uses may _ (recordCharge env n request result st t reason) :=
  uses_bind (uses_record hm) fun _ => uses_mutateOrder (.recordPaymentAttempt _) hm

/-- What follows the charge does not charge. -/
theorem each_fulfilled (env : PaymentEnv) (rid : String) (request : ChargeRequest)
    (result : ChargeResult) (hc : may.confirmsAt = some env.checkAt) :
    Async.Each (Uses may) (tryCatch
      (do
        Async.await (confirmBoth env request.orderId rid result.transactionId)
        Async.await (orderRepoSave request.orderId)
        pure ⟨true, .confirmed, result.transactionId, false, false, false, none⟩)
      (postPaymentFailure env request.orderId result.transactionId) : Flow ProcessPaymentResult) :=
  each_tryCatch (each_bind (each_await (uses_confirmBoth env _ rid _ hc)) fun _ =>
    each_bind (each_await (uses_orderRepoSave _)) fun _ => each_pure _)
    (each_postPaymentFailure env _ _)

theorem each_declineCharge (env : PaymentEnv) (rid : String) (n : ℕ) (request : ChargeRequest)
    (result : ChargeResult) (st : PaymentStatus) (reason msg : String) (hm : may.charges) :
    (declineCharge env rid n request result st reason msg).Each (Uses may) := by
  refine each_bind (each_await (uses_bind (uses_recordCharge env n request result _ _ _ hm) fun _ =>
    uses_declineOrder _ rid env.checkAt (uses_orderRepoSave _))) fun reverted => ?_
  split_ifs
  · exact each_bind (each_await (uses_orderRepoSave _)) fun _ => each_pure _
  · exact each_pure _

theorem uses_startCharge (env : PaymentEnv) (command : ProcessPaymentCommand) (hm : may.charges) :
    Uses may _ (startCharge env command) := by
  refine uses_bind (uses_derefOrder _) fun o => ?_
  split
  · exact uses_pure _
  have hstart : Uses may _ (do
      let request : ChargeRequest := ⟨env.paymentId, o.id, o.totalAmount,
        command.paymentMethodToken, command.idempotencyKey, command.customerEmail⟩
      record (.chargeRequested request)
      pure (.inr (o.paymentAttempts.length + 1, request)) :
        Segment (ProcessPaymentResult ⊕ ℕ × ChargeRequest)) :=
    uses_bind (uses_record hm) fun _ => uses_pure _
  split_ifs
  · exact uses_pure _
  · exact uses_bind (uses_mutateOrder .retryPayment trivial) fun _ => hstart
  · exact hstart

theorem each_processPayment (env : PaymentEnv) (command : ProcessPaymentCommand)
    (hm : may.charges) (hc : may.confirmsAt = some env.checkAt) :
    (processPayment env command).Each (Uses may) := by
  refine each_bind (each_await (uses_read _)) fun _ => each_bind (each_orNotFound _ _ _) fun o => ?_
  refine each_bind (each_await (uses_read _)) fun _ => each_bind (each_orNotFound _ _ _) fun r => ?_
  refine each_bind (each_await (uses_startCharge env command hm)) fun started => ?_
  rcases started with answer | ⟨n, q⟩
  · exact each_pure _
  rcases env.charge with e | result
  · exact each_await (uses_throw _)
  rcases result with ⟨_ | _ | _ | _, t, m⟩
  · exact each_bind (each_await (uses_bind (uses_recordCharge env n q _ _ _ _ hm) fun _ =>
      uses_record trivial)) fun _ => each_fulfilled env r.id q _ hc
  · exact each_declineCharge env r.id n q _ _ _ _ hm
  · exact each_bind (each_await (uses_bind (uses_recordCharge env n q _ _ _ _ hm) fun _ =>
      uses_orderRepoSave _)) fun _ => each_pure _
  · exact each_declineCharge env r.id n q _ _ _ _ hm

theorem uses_applyWebhook (env : WebhookEnv) (self : ℕ) (payload : PaymentWebhookPayload)
    (rid : String) (hc : may.confirmsAt = some env.checkAt) :
    Uses may _ (applyWebhook env self payload rid) := by
  refine uses_bind (uses_derefOrder _) fun o => uses_bind (uses_derefReservation _) fun r => ?_
  split_ifs
  · exact uses_bind (uses_addEvent _ _) fun _ => uses_pure _
  · exact uses_bind (uses_mutateOrder (.markRefundRequired _) trivial) fun _ =>
      uses_bind (uses_addEvent _ _) fun _ => uses_bind (uses_orderRepoSave _) fun _ => uses_pure _
  · exact uses_bind (uses_mutateOrder (.confirm _ _) trivial) fun _ =>
      uses_bind (uses_mutateReservation (.confirm env.checkAt env.later) hc) fun _ =>
        uses_bind (uses_addEvent _ _) fun _ =>
          uses_bind (uses_reservationRepoSave _) fun _ => uses_pure _
  · exact uses_bind (uses_declineOrder _ rid _ (uses_bind (uses_addEvent _ _) fun _ =>
      uses_orderRepoSave _)) fun _ => uses_pure _

theorem each_handlePaymentWebhook (env : WebhookEnv) (self : ℕ) (payload : PaymentWebhookPayload)
    (hc : may.confirmsAt = some env.checkAt) :
    (handlePaymentWebhook env self payload).Each (Uses may) := by
  refine each_bind (each_await (uses_read _)) fun found => ?_
  rcases found with ⟨seen, found⟩
  cases seen with
  | true =>
    refine each_bind (each_await ?_) fun _ => each_pure _
    rcases found with _ | o
    · exact uses_pure _
    · exact uses_bind (uses_derefOrder _) fun _ => uses_pure _
  | false =>
    refine each_bind (each_orNotFound _ _ _) fun o => ?_
    refine each_bind (each_await (uses_read _)) fun _ => each_bind (each_orNotFound _ _ _)
      fun r => ?_
    refine each_bind (each_await (uses_applyWebhook env self payload r.id hc)) fun step => ?_
    rcases step with _ | _ | _ | reverted
    · exact each_pure _
    · exact each_pure _
    · exact each_bind (each_await (uses_orderRepoSave _)) fun _ => each_pure _
    · cases reverted with
      | false => exact each_pure _
      | true => exact each_bind (each_await (uses_bind (uses_addEvent _ _) fun _ =>
          uses_orderRepoSave _)) fun _ => each_pure _

theorem each_call (c : Call) : c.program.Each (Uses (Action.call c).repertoire) := by
  cases c with
  | initiateCheckout env command =>
    exact each_bind (each_initiateCheckout env command) fun _ => each_pure _
  | processPayment env command =>
    exact each_bind (each_processPayment env command trivial rfl) fun _ => each_pure _
  | handlePaymentWebhook env self payload =>
    exact each_bind (each_handlePaymentWebhook env self payload rfl) fun _ => each_pure _
  | compensateOrder env oid x reason =>
    exact each_bind (each_compensateOrder env oid x reason) fun _ => each_pure _
  | retryCompensation env oid =>
    exact each_bind (each_retryCompensation env oid) fun _ => each_pure _
  | expire now later rid =>
    exact each_bind (each_await (uses_mutateReservation (.expire now later) rfl))
      fun _ => each_pure _

theorem each_action (a : Action) : a.program.Each (Uses a.repertoire) := by
  cases a with
  | call c => exact each_bind (each_call c) fun _ => each_pure _
  | method m rid =>
    refine each_bind (each_await (uses_mutateReservation m ?_)) fun _ => each_pure _
    cases m <;> trivial

end Calls

end LaunchPad
