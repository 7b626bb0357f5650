import LaunchPad.Proofs.Charges

/-!
# The audit trails of an order

A charge is sent in one segment and its answer recorded in the next of the same call, with the
number the attempt had when it was sent; a refund likewise. Nothing else touches the trails
(`TrailMove`). So whatever is interleaved, an order's attempts are the answers that came in, in
their order; and where no other call on the order came in between, the number is still the next
one.
-/

namespace LaunchPad

open Interleave Rows

/-! ## Trails and answers -/

/-- The status an attempt has for a charge with this answer. -/
def ChargeStatus.recorded : ChargeStatus → PaymentStatus
  | .success => .success
  | .declined => .declined
  | .timeout => .timeout
  | .failed => .failed

/-- An attempt's key, status and transaction. -/
def PaymentAttempt.answer (a : PaymentAttempt) : String × PaymentStatus × Option String :=
  (a.idempotencyKey, a.status, a.providerTransactionId)

/-- An attempt's key, and whether the refund went through. -/
def CompensationAttempt.answer (a : CompensationAttempt) : String × Bool :=
  (a.idempotencyKey, decide (a.status = .success))

/-- What came back for a charge: the key it had, the status, and the transaction if it is SUCCESS. -/
def chargeAnswer (q : ChargeRequest) (r : ChargeResult) : String × PaymentStatus × Option String :=
  (q.idempotencyKey, r.status.recorded, if r.status = .success then r.transactionId else none)

def refundAnswer (q : RefundRequest) (r : RefundResult) : String × Bool :=
  (q.idempotencyKey, decide (r.status = .success))

/-- The answers to the order's charges, in the order in which they came in. -/
def chargesReturned (oid : String) (log : List PortEvent) :
    List (String × PaymentStatus × Option String) :=
  log.filterMap fun
    | .chargeAnswered q r => if q.orderId = oid then some (chargeAnswer q r) else none
    | _ => none

def refundsReturned (oid : String) (log : List PortEvent) : List (String × Bool) :=
  log.filterMap fun
    | .refundAnswered q r => if q.orderId = oid then some (refundAnswer q r) else none
    | _ => none

def World.compensations (w : World) (oid : String) : List CompensationAttempt :=
  ((w.orders.get oid).map (·.compensationAttempts)).getD []

def PortEvent.IsAnswer : PortEvent → Prop
  | .chargeAnswered _ _ => True
  | .refundAnswered _ _ => True
  | _ => False

/-- Nothing came back and nothing was recorded. -/
structure SameTrails (w w' : World) : Prop where
  log : ∃ l, w'.log = w.log ++ l ∧ ∀ e ∈ l, ¬ e.IsAnswer
  attempts : ∀ oid, w'.attempts oid = w.attempts oid
  compensations : ∀ oid, w'.compensations oid = w.compensations oid

theorem chargesReturned_of_none {oid : String} {l : List PortEvent}
    (h : ∀ e ∈ l, ¬ e.IsAnswer) : chargesReturned oid l = [] := by
  refine List.filterMap_eq_nil_iff.2 fun e he => ?_
  have hn := h e he
  cases e <;> simp_all [PortEvent.IsAnswer]

theorem refundsReturned_of_none {oid : String} {l : List PortEvent}
    (h : ∀ e ∈ l, ¬ e.IsAnswer) : refundsReturned oid l = [] := by
  refine List.filterMap_eq_nil_iff.2 fun e he => ?_
  have hn := h e he
  cases e <;> simp_all [PortEvent.IsAnswer]

theorem sameTrails_refl (w : World) : SameTrails w w :=
  ⟨⟨[], by simp⟩, fun _ => rfl, fun _ => rfl⟩

theorem SameTrails.trans {w₁ w₂ w₃ : World} (h : SameTrails w₁ w₂) (h' : SameTrails w₂ w₃) :
    SameTrails w₁ w₃ := by
  obtain ⟨l, hl, hn⟩ := h.log
  obtain ⟨l', hl', hn'⟩ := h'.log
  refine ⟨⟨l ++ l', by rw [hl', hl, List.append_assoc], fun e he => ?_⟩,
    fun oid => (h'.attempts oid).trans (h.attempts oid),
    fun oid => (h'.compensations oid).trans (h.compensations oid)⟩
  rcases List.mem_append.1 he with he | he
  · exact hn e he
  · exact hn' e he

theorem World.compensations_saveOrder (w : World) (o : Order) (oid : String) :
    (w.saveOrder o).compensations oid
      = if oid = o.id then o.compensationAttempts else w.compensations oid := by
  have hget : (w.saveOrder o).orders.get oid = if oid = o.id then some o else w.orders.get oid :=
    Repository.get_save _ o oid
  unfold compensations
  rw [hget]
  split_ifs <;> rfl

theorem World.compensations_of_get {w : World} {oid : String} {o : Order}
    (ho : w.orders.get oid = some o) : w.compensations oid = o.compensationAttempts := by
  simp [compensations, ho]

theorem sameTrails_saveOrder {w : World} {o : Order} (h : w.attempts o.id = o.paymentAttempts)
    (h' : w.compensations o.id = o.compensationAttempts) : SameTrails w (w.saveOrder o) := by
  refine ⟨⟨[], by simp [World.saveOrder]⟩, fun oid => ?_, fun oid => ?_⟩
  · rw [World.attempts_saveOrder]
    split_ifs with hid
    · rw [hid, h]
    · rfl
  · rw [World.compensations_saveOrder]
    split_ifs with hid
    · rw [hid, h']
    · rfl

/-! ## Segments that leave no trace -/

section Segments

variable {α β : Type}

def LeavesNoTrace (x : Segment α) : Prop := ∀ w r w', x w = some (r, w') → SameTrails w w'

theorem noTrace_pure (a : α) : LeavesNoTrace (pure a : Segment α) := by
  intro w r w' h
  simp only [Sync.pure_apply, Option.some.injEq, Prod.mk.injEq] at h
  exact h.2 ▸ sameTrails_refl w

theorem noTrace_throw (e : WorkflowError) : LeavesNoTrace (throw e : Segment α) := by
  intro w r w' h
  simp only [Sync.throw_apply, Option.some.injEq, Prod.mk.injEq] at h
  exact h.2 ▸ sameTrails_refl w

theorem noTrace_read (f : World → α) : LeavesNoTrace (Sync.read f : Segment α) := by
  intro w r w' h
  simp only [Sync.read_apply, Option.some.injEq, Prod.mk.injEq] at h
  exact h.2 ▸ sameTrails_refl w

theorem noTrace_ofExcept (e : Except WorkflowError α) :
    LeavesNoTrace (Sync.ofExcept e : Segment α) := by
  intro w r w' h
  simp only [Sync.ofExcept_apply, Option.some.injEq, Prod.mk.injEq] at h
  exact h.2 ▸ sameTrails_refl w

theorem noTrace_derefOrder (id : String) : LeavesNoTrace (derefOrder id) := by
  intro w r w' h
  simp only [derefOrder, Option.map_eq_some_iff, Prod.mk.injEq] at h
  obtain ⟨o, -, -, rfl⟩ := h
  exact sameTrails_refl w

theorem noTrace_derefReservation (id : String) : LeavesNoTrace (derefReservation id) := by
  intro w r w' h
  simp only [derefReservation, Option.map_eq_some_iff, Prod.mk.injEq] at h
  obtain ⟨v, -, -, rfl⟩ := h
  exact sameTrails_refl w

theorem noTrace_bind {x : Segment β} {f : β → Segment α} (hx : LeavesNoTrace x)
    (hf : ∀ b, LeavesNoTrace (f b)) : LeavesNoTrace (x >>= f) := by
  intro w r w' h
  rcases Sync.bind_eq_some.1 h with ⟨a, w₁, h₁, h₂⟩ | ⟨e, h₁, -⟩
  · exact (hx w _ w₁ h₁).trans (hf a w₁ _ w' h₂)
  · exact hx w _ w' h₁

/-- A method of the order that records no attempt. -/
theorem noTrace_mutateOrder {id : String} {f : Order → Except WorkflowError Order}
    (hf : ∀ o o', f o = .ok o' → o'.id = o.id ∧ o'.paymentAttempts = o.paymentAttempts
      ∧ o'.compensationAttempts = o.compensationAttempts) : LeavesNoTrace (mutateOrder id f) := by
  intro w r w' h
  obtain ⟨o, ho, hid, ⟨e, -, -, rfl⟩ | ⟨o', ho', -, rfl⟩⟩ := mutateOrder_eq_some h
  · exact sameTrails_refl w'
  · obtain ⟨hid', hpayments, hcompensations⟩ := hf o o' ho'
    refine sameTrails_saveOrder ?_ ?_
    · rw [hid', hid, World.attempts_of_get ho, hpayments]
    · rw [hid', hid, World.compensations_of_get ho, hcompensations]

theorem noTrace_orderRepoSave (id : String) : LeavesNoTrace (orderRepoSave id) :=
  noTrace_mutateOrder fun o o' h => by
    obtain rfl := Except.ok.inj h
    exact ⟨rfl, rfl, rfl⟩

theorem sameTrails_of_orders {w w' : World} (horders : w'.orders = w.orders)
    (hlog : ∃ l, w'.log = w.log ++ l ∧ ∀ e ∈ l, ¬ e.IsAnswer) : SameTrails w w' :=
  ⟨hlog, fun oid => by rw [World.attempts, World.attempts, horders],
    fun oid => by rw [World.compensations, World.compensations, horders]⟩

theorem noTrace_mutateReservation {id : String}
    {f : Reservation → Except WorkflowError Reservation} :
    LeavesNoTrace (mutateReservation id f) := by
  intro w r w' h
  obtain ⟨v, -, -, ⟨e, -, -, rfl⟩ | ⟨v', -, -, rfl⟩⟩ := mutateReservation_eq_some h
  · exact sameTrails_refl w'
  · exact sameTrails_of_orders rfl ⟨[], by simp [World.saveReservation]⟩

theorem noTrace_record {e : PortEvent} (he : ¬ e.IsAnswer) : LeavesNoTrace (record e) := by
  intro w r w' h
  simp only [record, Sync.modify_apply, Option.some.injEq, Prod.mk.injEq] at h
  exact h.2 ▸ sameTrails_of_orders rfl ⟨[e], rfl, by simpa using he⟩

theorem noTrace_addEvent (self : ℕ) (eventId : String) : LeavesNoTrace (addEvent self eventId) := by
  intro w r w' h
  simp only [addEvent, Sync.modify_apply, Option.some.injEq, Prod.mk.injEq] at h
  exact h.2 ▸ sameTrails_of_orders rfl ⟨[], by simp [World.addEvent]⟩

end Segments

/-! ## The segments of the calls -/

theorem noTrace_startCheckout (env : CheckoutEnv) (rid : String) :
    LeavesNoTrace (startCheckout env rid) := by
  refine noTrace_bind (noTrace_derefReservation _) fun v => ?_
  split_ifs
  · exact noTrace_throw _
  · exact noTrace_bind noTrace_mutateReservation fun _ => noTrace_mutateReservation

theorem noTrace_createOrder (env : CheckoutEnv) (command : InitiateCheckoutCommand) :
    LeavesNoTrace (createOrder env command) := by
  refine noTrace_bind (noTrace_derefReservation _) fun v w r w' h => ?_
  by_cases hfresh : w.orders.get env.orderId.val = none
  · simp only [Sync.bind_apply, Sync.waitFor, if_pos hfresh, Sync.modify_apply, Sync.pure_apply,
      Option.some.injEq, Prod.mk.injEq] at h
    rw [← h.2]
    refine sameTrails_saveOrder ?_ ?_
    · simp [World.attempts, Order.ofReservation, hfresh]
    · simp [World.compensations, Order.ofReservation, hfresh]
  · simp [Sync.bind_apply, Sync.waitFor, if_neg hfresh] at h

theorem noTrace_lookUpHold (oid rid : String) : LeavesNoTrace (lookUpHold oid rid) := by
  refine noTrace_bind (noTrace_derefOrder _) fun o => ?_
  split_ifs
  · exact noTrace_pure _
  · exact noTrace_bind (noTrace_read _) fun _ => noTrace_pure _

theorem noTrace_releaseHold (found : Option Reservation) : LeavesNoTrace (releaseHold found) := by
  rcases found with _ | v
  · exact noTrace_pure _
  refine noTrace_bind (noTrace_derefReservation _) fun v => ?_
  split_ifs
  · exact noTrace_bind noTrace_mutateReservation fun _ =>
      noTrace_bind noTrace_mutateReservation fun _ => noTrace_pure _
  · exact noTrace_pure _

theorem noTrace_checkRetry (oid : String) : LeavesNoTrace (checkRetry oid) := by
  refine noTrace_bind (noTrace_derefOrder _) fun o => ?_
  split_ifs
  · exact noTrace_throw _
  · exact noTrace_pure _

theorem noTrace_confirm {t : Option String} {timestamp : Time} {id : String} :
    LeavesNoTrace (mutateOrder id fun o => (·.2) <$> o.confirm t timestamp) := by
  refine noTrace_mutateOrder fun o o' h => ?_
  simp only [Order.confirm] at h
  split_ifs at h <;> cases h <;> exact ⟨rfl, rfl, rfl⟩

theorem noTrace_confirmBoth (env : PaymentEnv) (oid rid : String) (t : Option String) :
    LeavesNoTrace (confirmBoth env oid rid t) :=
  noTrace_bind (noTrace_ofExcept _) fun _ => noTrace_bind (noTrace_record id) fun _ =>
    noTrace_bind noTrace_confirm fun _ => noTrace_bind noTrace_mutateReservation fun _ =>
      noTrace_mutateReservation

theorem noTrace_declineOrder (oid rid : String) (now : Time) {tail : Segment Unit}
    (htail : LeavesNoTrace tail) : LeavesNoTrace (declineOrder oid rid now tail) := by
  refine noTrace_bind (noTrace_mutateOrder fun o o' h => ?_) fun _ =>
    noTrace_bind (noTrace_derefReservation _) fun v => ?_
  · simp only [Order.markPaymentDeclined] at h
    split_ifs at h
    obtain rfl := Except.ok.inj h
    exact ⟨rfl, rfl, rfl⟩
  · split_ifs
    · exact noTrace_bind noTrace_mutateReservation fun _ =>
        noTrace_bind noTrace_mutateReservation fun _ => noTrace_pure _
    · exact noTrace_bind htail fun _ => noTrace_pure _

theorem noTrace_applyWebhook (env : WebhookEnv) (self : ℕ) (payload : PaymentWebhookPayload)
    (rid : String) : LeavesNoTrace (applyWebhook env self payload rid) := by
  refine noTrace_bind (noTrace_derefOrder _) fun o =>
    noTrace_bind (noTrace_derefReservation _) fun v => ?_
  split_ifs
  · exact noTrace_bind (noTrace_addEvent _ _) fun _ => noTrace_pure _
  · refine noTrace_bind (noTrace_mutateOrder fun o o' h => ?_) fun _ =>
      noTrace_bind (noTrace_addEvent _ _) fun _ =>
        noTrace_bind (noTrace_orderRepoSave _) fun _ => noTrace_pure _
    obtain rfl := Except.ok.inj h
    exact ⟨rfl, rfl, rfl⟩
  · exact noTrace_bind noTrace_confirm fun _ => noTrace_bind noTrace_mutateReservation fun _ =>
      noTrace_bind (noTrace_addEvent _ _) fun _ =>
        noTrace_bind noTrace_mutateReservation fun _ => noTrace_pure _
  · exact noTrace_bind (noTrace_declineOrder _ rid _ (noTrace_bind (noTrace_addEvent _ _) fun _ =>
      noTrace_orderRepoSave _)) fun _ => noTrace_pure _

/-! ## Phases -/

/-- What a call waits for, with the number the attempt will have. -/
inductive TrailPhase
  | idle
  | charging (n : ℕ)
  | refunding (n : ℕ)

/-- The segments of a call, as far as the trails go. -/
inductive TrailMove (on : Option String) : TrailPhase → World → World → TrailPhase → Prop
  /-- Among these, one in which the gateway threw. -/
  | quiet {p : TrailPhase} {w w' : World} (h : SameTrails w w') : TrailMove on p w w' .idle
  | charge {w w' : World} {oid : String} (hon : on = some oid) (h : SameTrails w w') :
      TrailMove on .idle w w' (.charging ((w.attempts oid).length + 1))
  | refund {w w' : World} {oid : String} (hon : on = some oid) (h : SameTrails w w') :
      TrailMove on .idle w w' (.refunding ((w.compensations oid).length + 1))
  | charged {w w' : World} {q : ChargeRequest} {res : ChargeResult} {o : Order} {a : PaymentAttempt}
      (hon : on = some q.orderId) (ho : w.orders.get q.orderId = some o)
      (ha : a.answer = chargeAnswer q res)
      (h : SameTrails ((w.record (.chargeAnswered q res)).saveOrder (o.recordPaymentAttempt a)) w') :
      TrailMove on (.charging a.attemptNumber) w w' .idle
  | refunded {w w' : World} {q : RefundRequest} {res : RefundResult} {o : Order}
      {a : CompensationAttempt} (hon : on = some q.orderId) (ho : w.orders.get q.orderId = some o)
      (ha : a.answer = refundAnswer q res)
      (h : SameTrails ((w.record (.refundAnswered q res)).saveOrder
        (o.recordCompensationAttempt a)) w') :
      TrailMove on (.refunding a.attemptNumber) w w' .idle

/-- The call leaves these trails, and waits for nothing in the end. -/
abbrev Trails {α : Type} (on : Option String) (p : Flow α) (s : TrailPhase) : Prop :=
  Follows (TrailMove on) (fun _ s => s = .idle) p s

section Programs

variable {on : Option String} {α β : Type}

/-- A segment that leaves no trace, and then the rest. -/
theorem trails_bind {x : Segment β} {f : β → Flow α} {s : TrailPhase} (hx : LeavesNoTrace x)
    (hf : ∀ b, Trails on (f b) .idle) : Trails on (Async.await x >>= f) s := by
  refine Follows.await_bind (K := fun _ s => s = .idle)
    (fun w r w' h => ⟨.idle, .quiet (hx w r w' h), rfl⟩) ?_ fun _ _ h => h
  rintro b _ rfl
  exact hf b

theorem trails_await {x : Segment α} {s : TrailPhase} (hx : LeavesNoTrace x) :
    Trails on (Async.await x) s :=
  Follows.await fun w r w' h => ⟨.idle, .quiet (hx w r w' h), rfl⟩

theorem trails_pure (a : α) : Trails on (pure a : Flow α) .idle := Follows.pure rfl

theorem trails_seq {p : Flow β} {f : β → Flow α} {s : TrailPhase} (hp : Trails on p s)
    (hf : ∀ b, Trails on (f b) .idle) : Trails on (p >>= f) s := by
  refine Follows.bind hp ?_ fun _ _ h => h
  rintro b _ rfl
  exact hf b

theorem trails_orNotFound (text id : String) (found : Option α) :
    Trails on (orNotFound text id found) .idle := by
  cases found with
  | none => exact Follows.throw rfl
  | some a => exact trails_pure a

/-! ## Refunds -/

theorem requestRefund_eq_some {env : CompensationEnv} {oid : String} {x : Option String}
    {reason : CompensationReason} {w w' : World}
    {r : Except WorkflowError (Option (ℕ × RefundRequest))}
    (h : requestRefund env oid x reason w = some (r, w')) :
    SameTrails w w' ∧ ∀ n q, r = .ok (some (n, q)) →
      n = (w.compensations oid).length + 1 ∧ q.orderId = oid := by
  rcases ho : w.orders.get oid with _ | o
  · simp [requestRefund, Sync.bind_apply, derefOrder, ho] at h
  simp only [requestRefund, Sync.bind_apply, derefOrder, ho, Option.map_some] at h
  rcases ht : o.refundTarget x with _ | t <;> rw [ht] at h
  · have hcancel : LeavesNoTrace (do
        mutateOrder oid (·.cancel)
        orderRepoSave oid
        pure none : Segment (Option (ℕ × RefundRequest))) := by
      refine noTrace_bind (noTrace_mutateOrder fun o o' h => ?_) fun _ =>
        noTrace_bind (noTrace_orderRepoSave _) fun _ => noTrace_pure _
      simp only [Order.cancel] at h
      split_ifs at h
      obtain rfl := Except.ok.inj h
      exact ⟨rfl, rfl, rfl⟩
    refine ⟨hcancel w r w' h, ?_⟩
    rintro n q rfl
    rcases Sync.bind_eq_some.1 h with ⟨-, w₁, -, h₁⟩ | ⟨e, -, he⟩
    · rcases Sync.bind_eq_some.1 h₁ with ⟨-, w₂, -, h₂⟩ | ⟨e, -, he⟩
      · simp at h₂
      · simp at he
    · simp at he
  · simp only [record, Sync.bind_apply, Sync.modify_apply, Sync.pure_apply, Option.some.injEq,
      Prod.mk.injEq] at h
    obtain ⟨rfl, rfl⟩ := h
    refine ⟨sameTrails_of_orders rfl ⟨_, rfl, by simp [PortEvent.IsAnswer]⟩, ?_⟩
    rintro n q he
    simp only [Except.ok.injEq, Option.some.injEq, Prod.mk.injEq] at he
    obtain ⟨rfl, rfl⟩ := he
    exact ⟨by rw [World.compensations_of_get ho], w.orders.get_key ho⟩

/-- An attempt is recorded, and what follows in the segment leaves no trace. -/
theorem recordCompensation_eq_some {oid : String} {a : CompensationAttempt} {tail : Segment α}
    (htail : LeavesNoTrace tail) {w w' : World} {r : Except WorkflowError α}
    (h : (mutateOrder oid (fun o => .ok (o.recordCompensationAttempt a)) >>= fun _ => tail) w
      = some (r, w')) :
    ∃ o, w.orders.get oid = some o
      ∧ SameTrails (w.saveOrder (o.recordCompensationAttempt a)) w' := by
  rcases Sync.bind_eq_some.1 h with ⟨_, w₁, h₁, h₂⟩ | ⟨e, h₁, -⟩
  · obtain ⟨o, ho, -, ⟨e, he, -⟩ | ⟨o', ho', -, rfl⟩⟩ := mutateOrder_eq_some h₁
    · simp at he
    · obtain rfl := Except.ok.inj ho'
      exact ⟨o, ho, htail _ _ _ h₂⟩
  · obtain ⟨o, -, -, ⟨e', he, -⟩ | ⟨-, -, he, -⟩⟩ := mutateOrder_eq_some h₁
    · simp at he
    · simp at he

theorem trails_settleRefund (env : CompensationEnv) (n : ℕ) (q : RefundRequest)
    (hon : on = some q.orderId) : Trails on (Async.await (settleRefund env n q)) (.refunding n) := by
  refine Follows.await fun w r w' h => ⟨.idle, ?_, rfl⟩
  rcases he : env.refund with e | res
  · simp only [settleRefund, he, Sync.bind_apply, Sync.ofExcept_apply, Option.some.injEq,
      Prod.mk.injEq] at h
    exact .quiet (h.2 ▸ sameTrails_refl w)
  have hstatus : ∀ (s : CompensationStatus) (t reason : Option String) (f : Order → Order)
      (answer : CompensationResult), (∀ o, (f o).id = o.id
        ∧ (f o).paymentAttempts = o.paymentAttempts
        ∧ (f o).compensationAttempts = o.compensationAttempts) →
      decide (s = .success) = decide (res.status = .success) → (do
        mutateOrder q.orderId fun o => .ok (o.recordCompensationAttempt
          ⟨n, q.idempotencyKey, s, t, reason, env.now⟩)
        mutateOrder q.orderId fun o => .ok (f o)
        orderRepoSave q.orderId
        pure answer : Segment CompensationResult) (w.record (.refundAnswered q res)) = some (r, w') →
      TrailMove on (.refunding n) w w' .idle := by
    intro s t reason f answer hf hs h
    obtain ⟨o, ho, hsame⟩ := recordCompensation_eq_some
      (noTrace_bind (noTrace_mutateOrder fun o o' h => Except.ok.inj h ▸ hf o) fun _ =>
        noTrace_bind (noTrace_orderRepoSave _) fun _ => noTrace_pure _) h
    exact .refunded (a := ⟨n, q.idempotencyKey, s, t, reason, env.now⟩) hon ho
      (by simp [CompensationAttempt.answer, refundAnswer, hs]) hsame
  simp only [settleRefund, he, Sync.bind_apply, Sync.ofExcept_apply, record,
    Sync.modify_apply] at h
  rcases hres : res.status with _ | _ | _ <;> rw [hres] at h
  · exact hstatus .success _ _ (·.markCompensated res.refundTransactionId) _
      (fun o => ⟨rfl, rfl, rfl⟩) (by simp [hres]) h
  · exact hstatus .failed _ _ (·.markCompensationPending) _ (fun o => ⟨rfl, rfl, rfl⟩)
      (by simp [hres]) h
  · exact hstatus .failed _ _ (·.markCompensationPending) _ (fun o => ⟨rfl, rfl, rfl⟩)
      (by simp [hres]) h

/-- What a call has asked for, and waits for. -/
def Awaits (on : Option String) (requested : Option (ℕ × RefundRequest)) (s : TrailPhase) : Prop :=
  match requested with
  | none => s = .idle
  | some (n, q) => on = some q.orderId ∧ s = .refunding n

/-- A segment that asks leaves this. -/
def AwaitsAsked (on : Option String) (r : Except WorkflowError (Option (ℕ × RefundRequest)))
    (s : TrailPhase) : Prop :=
  match r with
  | .ok requested => Awaits on requested s
  | .error _ => s = .idle

/-- A segment that may have asked leaves this. -/
def AwaitsReleased (on : Option String)
    (r : Except WorkflowError (Option (Option (ℕ × RefundRequest)))) (s : TrailPhase) : Prop :=
  match r with
  | .ok (some requested) => Awaits on requested s
  | .ok none => s = .idle
  | .error _ => s = .idle

theorem trails_compensateOrder (env : CompensationEnv) (oid : String) (x : Option String)
    (reason : CompensationReason) (hon : on = some oid) :
    Trails on (compensateOrder env oid x reason) .idle := by
  have hasked : ∀ {w w₁ w' : World} {r : Except WorkflowError (Option (ℕ × RefundRequest))},
      SameTrails w w₁ → requestRefund env oid x reason w₁ = some (r, w') →
      ∃ s, TrailMove on .idle w w' s ∧ AwaitsAsked on r s := by
    intro w w₁ w' r hsame h
    obtain ⟨hquiet, hnumber⟩ := requestRefund_eq_some h
    rcases r with e | _ | ⟨n, q⟩
    · exact ⟨.idle, .quiet (hsame.trans hquiet), rfl⟩
    · exact ⟨.idle, .quiet (hsame.trans hquiet), rfl⟩
    · obtain ⟨rfl, hq⟩ := hnumber n q rfl
      refine ⟨.refunding ((w₁.compensations oid).length + 1), ?_, by rw [hon, hq], rfl⟩
      rw [hsame.compensations]
      exact .refund hon (hsame.trans hquiet)
  have hrest : ∀ (requested : Option (ℕ × RefundRequest)) (s : TrailPhase),
      Awaits on requested s → Trails on (settleRequested env requested) s := by
    rintro (_ | ⟨n, q⟩) s hs
    · exact Follows.pure hs
    · obtain ⟨hq, rfl⟩ := hs
      exact trails_settleRefund env n q hq
  refine trails_bind (noTrace_read _) fun found => trails_seq (trails_orNotFound _ _ _) fun o => ?_
  refine trails_bind (noTrace_lookUpHold _ _) fun looked => ?_
  rcases looked with answer | reservation
  · exact trails_pure _
  refine Follows.await_bind (K := AwaitsReleased on) ?_ ?_ fun _ _ h => h
  · intro w r w' h
    rcases Sync.bind_eq_some.1 h with ⟨released, w₁, h₁, h₂⟩ | ⟨e, h₁, rfl⟩
    · have hsame := noTrace_releaseHold _ w _ w₁ h₁
      split_ifs at h₂
      · simp only [Sync.pure_apply, Option.some.injEq, Prod.mk.injEq] at h₂
        obtain ⟨rfl, rfl⟩ := h₂
        exact ⟨.idle, .quiet hsame, rfl⟩
      · rcases Sync.bind_eq_some.1 h₂ with ⟨requested, w₂, h₃, h₄⟩ | ⟨e, h₃, rfl⟩
        · simp only [Sync.pure_apply, Option.some.injEq, Prod.mk.injEq] at h₄
          obtain ⟨rfl, rfl⟩ := h₄
          exact hasked hsame h₃
        · exact hasked hsame h₃
    · exact ⟨.idle, .quiet (noTrace_releaseHold _ w _ w' h₁), rfl⟩
  · rintro (_ | requested) s hs
    · obtain rfl : s = .idle := hs
      exact Follows.await_bind (K := AwaitsAsked on)
        (fun w r w' h => hasked (sameTrails_refl w) h) hrest fun _ _ h => h
    · exact hrest requested s hs

theorem trails_retryCompensation (env : CompensationEnv) (oid : String) (hon : on = some oid) :
    Trails on (retryCompensation env oid) .idle :=
  trails_bind (noTrace_read _) fun _ => trails_seq (trails_orNotFound _ _ _) fun _ =>
    trails_bind (noTrace_checkRetry _) fun _ => trails_compensateOrder env oid none .retry hon

/-! ## Charges -/

theorem startCharge_sameTrails {env : PaymentEnv} {command : ProcessPaymentCommand} {w w' : World}
    {r : Except WorkflowError (ProcessPaymentResult ⊕ ℕ × ChargeRequest)}
    (h : startCharge env command w = some (r, w')) :
    SameTrails w w' ∧ ∀ n q, r = .ok (.inr (n, q)) →
      n = (w.attempts command.orderId).length + 1 ∧ q.orderId = command.orderId := by
  obtain ⟨o, ho, ⟨⟨answer, rfl⟩, rfl, -⟩ | ⟨w₁, q, hw₁, hid, -, rfl, rfl, -⟩⟩ :=
    startCharge_eq_some h
  · exact ⟨sameTrails_refl w', by simp⟩
  have hoid : o.id = command.orderId := w.orders.get_key ho
  have hat : w.attempts o.id = o.paymentAttempts := by rw [hoid, World.attempts_of_get ho]
  have hcomp : w.compensations o.id = o.compensationAttempts := by
    rw [hoid, World.compensations_of_get ho]
  have hsame : SameTrails w w₁ := by
    rcases hw₁ with rfl | rfl
    · exact sameTrails_refl w₁
    · exact sameTrails_saveOrder hat hcomp
  refine ⟨hsame.trans (sameTrails_of_orders rfl ⟨_, rfl, by simp [PortEvent.IsAnswer]⟩), ?_⟩
  intro n q' he
  simp only [Except.ok.injEq, Sum.inr.injEq, Prod.mk.injEq] at he
  obtain ⟨rfl, rfl⟩ := he
  exact ⟨by rw [World.attempts_of_get ho], hid.trans hoid⟩

/-- The answer to a charge is recorded, and what follows in the segment leaves no trace. -/
theorem charged_of_recordCharge {env : PaymentEnv} {n : ℕ} {q : ChargeRequest} {res : ChargeResult}
    {t reason : Option String} (hon : on = some q.orderId)
    (ht : t = if res.status = .success then res.transactionId else none) {tail : Segment α}
    (htail : LeavesNoTrace tail) {w w' : World} {r : Except WorkflowError α}
    (h : (recordCharge env n q res res.status.recorded t reason >>= fun _ => tail) w
      = some (r, w')) : TrailMove on (.charging n) w w' .idle := by
  have hrecord : ∀ {r₁ w₁}, recordCharge env n q res res.status.recorded t reason w
      = some (r₁, w₁) → r₁ = .ok () ∧ ∃ o, w.orders.get q.orderId = some o
        ∧ w₁ = (w.record (.chargeAnswered q res)).saveOrder (o.recordPaymentAttempt
          ⟨n, q.idempotencyKey, res.status.recorded, t, reason, env.attemptAt⟩) := by
    intro r₁ w₁ h₁
    simp only [recordCharge, record, Sync.bind_apply, Sync.modify_apply] at h₁
    obtain ⟨o, ho, -, ⟨e, he, -⟩ | ⟨o', ho', rfl, rfl⟩⟩ := mutateOrder_eq_some h₁
    · simp at he
    · obtain rfl := Except.ok.inj ho'
      exact ⟨rfl, o, ho, rfl⟩
  rcases Sync.bind_eq_some.1 h with ⟨_, w₁, h₁, h₂⟩ | ⟨e, h₁, -⟩
  · obtain ⟨-, o, ho, rfl⟩ := hrecord h₁
    exact .charged (a := ⟨n, q.idempotencyKey, res.status.recorded, t, reason, env.attemptAt⟩) hon ho
      (by simp [PaymentAttempt.answer, chargeAnswer, ht]) (htail _ _ _ h₂)
  · obtain ⟨he, -⟩ := hrecord h₁
    simp at he

theorem trails_charged {env : PaymentEnv} {n : ℕ} {q : ChargeRequest} {res : ChargeResult}
    {t reason : Option String} (hon : on = some q.orderId)
    (ht : t = if res.status = .success then res.transactionId else none) {tail : Segment β}
    (htail : LeavesNoTrace tail) {k : β → Flow α} (hk : ∀ b, Trails on (k b) .idle) :
    Trails on (Async.await (recordCharge env n q res res.status.recorded t reason >>= fun _ => tail)
      >>= k) (.charging n) := by
  refine Follows.await_bind (K := fun _ s => s = .idle)
    (fun w r w' h => ⟨.idle, charged_of_recordCharge hon ht htail h, rfl⟩) ?_ fun _ _ h => h
  rintro b _ rfl
  exact hk b

theorem trails_declineCharge (env : PaymentEnv) (rid : String) (n : ℕ) (q : ChargeRequest)
    (res : ChargeResult) (reason msg : String) (hon : on = some q.orderId)
    (hres : res.status ≠ .success) :
    Trails on (declineCharge env rid n q res res.status.recorded reason msg) (.charging n) := by
  refine trails_charged hon (by rw [if_neg hres])
    (noTrace_declineOrder _ rid env.checkAt (noTrace_orderRepoSave _)) fun reverted => ?_
  split_ifs
  · exact trails_bind (noTrace_orderRepoSave _) fun _ => trails_pure _
  · exact trails_pure _

theorem trails_fulfil (env : PaymentEnv) (rid : String) (n : ℕ) (q : ChargeRequest)
    (res : ChargeResult) (hon : on = some q.orderId) (hres : res.status = .success) :
    Trails on (fulfil env rid n q res) (.charging n) := by
  have hst : PaymentStatus.success = res.status.recorded := by rw [hres]; rfl
  unfold fulfil
  rw [hst]
  refine trails_charged hon (by rw [if_pos hres]) (noTrace_record id) fun _ => ?_
  refine Follows.tryCatch (K := fun _ s => s = .idle) ?_ (fun _ _ h => h) ?_
  · exact trails_bind (noTrace_confirmBoth _ _ _ _) fun _ =>
      trails_bind (noTrace_orderRepoSave _) fun _ => trails_pure _
  · rintro e _ rfl
    exact trails_bind (noTrace_orderRepoSave _) fun _ =>
      trails_seq (trails_compensateOrder _ _ _ _ hon) fun _ => trails_pure _

/-- What `startCharge` leaves: it waits for a charge, or not. -/
def AwaitsCharge (on : Option String)
    (r : Except WorkflowError (ProcessPaymentResult ⊕ ℕ × ChargeRequest)) (s : TrailPhase) : Prop :=
  match r with
  | .ok (.inr (n, q)) => on = some q.orderId ∧ s = .charging n
  | .ok (.inl _) => s = .idle
  | .error _ => s = .idle

theorem trails_processPayment (env : PaymentEnv) (command : ProcessPaymentCommand)
    (hon : on = some command.orderId) : Trails on (processPayment env command) .idle := by
  refine trails_bind (noTrace_read _) fun _ => trails_seq (trails_orNotFound _ _ _) fun o => ?_
  refine trails_bind (noTrace_read _) fun _ => trails_seq (trails_orNotFound _ _ _) fun v => ?_
  refine Follows.await_bind (K := AwaitsCharge on) ?_ ?_ fun _ _ h => h
  · intro w r w' h
    obtain ⟨hsame, hnumber⟩ := startCharge_sameTrails h
    rcases r with e | answer | ⟨n, q⟩
    · exact ⟨.idle, .quiet hsame, rfl⟩
    · exact ⟨.idle, .quiet hsame, rfl⟩
    · obtain ⟨rfl, hq⟩ := hnumber n q rfl
      exact ⟨_, .charge hon hsame, by rw [hon, hq], rfl⟩
  rintro (answer | ⟨n, q⟩) s hs
  · exact Follows.pure hs
  obtain ⟨hq, rfl⟩ := hs
  rcases env.charge with e | res
  · exact trails_await (noTrace_throw e)
  rcases res with ⟨_ | _ | _ | _, t, m⟩
  · exact trails_fulfil env v.id n q _ hq rfl
  · exact trails_declineCharge env v.id n q _ _ _ hq (by simp)
  · have ht : none = if (⟨.timeout, t, m⟩ : ChargeResult).status = .success then t else none := rfl
    exact trails_charged hq ht (noTrace_orderRepoSave _) fun _ => trails_pure _
  · exact trails_declineCharge env v.id n q _ _ _ hq (by simp)

/-! ## The other calls -/

theorem trails_handlePaymentWebhook (env : WebhookEnv) (self : ℕ) (payload : PaymentWebhookPayload) :
    Trails on (handlePaymentWebhook env self payload) .idle := by
  refine trails_bind (noTrace_read _) fun found => ?_
  rcases found with ⟨seen, found⟩
  cases seen with
  | true =>
    refine trails_bind ?_ fun _ => trails_pure _
    rcases found with _ | o
    · exact noTrace_pure _
    · exact noTrace_bind (noTrace_derefOrder _) fun _ => noTrace_pure _
  | false =>
    refine trails_seq (trails_orNotFound _ _ _) fun o => trails_bind (noTrace_read _) fun _ =>
      trails_seq (trails_orNotFound _ _ _) fun v => ?_
    refine trails_bind (noTrace_applyWebhook env self payload v.id) fun step => ?_
    rcases step with _ | _ | _ | reverted
    · exact trails_pure _
    · exact trails_pure _
    · exact trails_bind (noTrace_orderRepoSave _) fun _ => trails_pure _
    · cases reverted with
      | false => exact trails_pure _
      | true => exact trails_bind (noTrace_bind (noTrace_addEvent _ _) fun _ =>
          noTrace_orderRepoSave _) fun _ => trails_pure _

theorem trails_initiateCheckout (env : CheckoutEnv) (command : InitiateCheckoutCommand) :
    Trails on (initiateCheckout env command) .idle :=
  trails_bind (noTrace_read _) fun _ => trails_seq (trails_orNotFound _ _ _) fun _ =>
    trails_bind (noTrace_startCheckout _ _) fun _ => trails_await (noTrace_createOrder _ _)

end Programs

theorem Call.trails (c : Call) : Trails c.orderId c.program .idle := by
  cases c with
  | initiateCheckout env command =>
    exact trails_seq (trails_initiateCheckout env command) fun _ => trails_pure _
  | processPayment env command =>
    exact trails_seq (trails_processPayment env command rfl) fun _ => trails_pure _
  | handlePaymentWebhook env self payload =>
    exact trails_seq (trails_handlePaymentWebhook env self payload) fun _ => trails_pure _
  | compensateOrder env oid x reason =>
    exact trails_seq (trails_compensateOrder env oid x reason rfl) fun _ => trails_pure _
  | retryCompensation env oid =>
    exact trails_seq (trails_retryCompensation env oid rfl) fun _ => trails_pure _
  | expire now later rid =>
    exact trails_bind noTrace_mutateReservation fun _ => trails_pure _

/-! ## What is recorded -/

/-- From the one world to the other, the trails of every order have grown by the answers that came
in, one attempt for each, in their order. -/
def Audited (w w' : World) : Prop :=
  ∃ l, w'.log = w.log ++ l ∧ ∀ oid,
    (∃ new, w'.attempts oid = w.attempts oid ++ new
      ∧ new.map PaymentAttempt.answer = chargesReturned oid l)
    ∧ ∃ new, w'.compensations oid = w.compensations oid ++ new
      ∧ new.map CompensationAttempt.answer = refundsReturned oid l

theorem SameTrails.audited {w w' : World} (h : SameTrails w w') : Audited w w' := by
  obtain ⟨l, hl, hn⟩ := h.log
  refine ⟨l, hl, fun oid => ⟨⟨[], ?_, ?_⟩, [], ?_, ?_⟩⟩
  · rw [h.attempts, List.append_nil]
  · rw [chargesReturned_of_none hn, List.map_nil]
  · rw [h.compensations, List.append_nil]
  · rw [refundsReturned_of_none hn, List.map_nil]

theorem Audited.trans {w₁ w₂ w₃ : World} (h : Audited w₁ w₂) (h' : Audited w₂ w₃) :
    Audited w₁ w₃ := by
  obtain ⟨l, hl, hnew⟩ := h
  obtain ⟨l', hl', hnew'⟩ := h'
  refine ⟨l ++ l', by rw [hl', hl, List.append_assoc], fun oid => ?_⟩
  obtain ⟨⟨a, ha, has⟩, b, hb, hbs⟩ := hnew oid
  obtain ⟨⟨a', ha', has'⟩, b', hb', hbs'⟩ := hnew' oid
  refine ⟨⟨a ++ a', by rw [ha', ha, List.append_assoc], ?_⟩,
    b ++ b', by rw [hb', hb, List.append_assoc], ?_⟩
  · rw [List.map_append, has, has', chargesReturned, chargesReturned, chargesReturned,
      List.filterMap_append]
  · rw [List.map_append, hbs, hbs', refundsReturned, refundsReturned, refundsReturned,
      List.filterMap_append]

theorem World.attempts_recorded {w : World} {e : PortEvent} {k : String} {o : Order}
    (ho : w.orders.get k = some o) (o' : Order) (hid : o'.id = o.id) (oid : String) :
    ((w.record e).saveOrder o').attempts oid
      = if oid = k then o'.paymentAttempts else w.attempts oid := by
  rw [attempts_saveOrder, hid, w.orders.get_key ho]
  rfl

theorem World.compensations_recorded {w : World} {e : PortEvent} {k : String} {o : Order}
    (ho : w.orders.get k = some o) (o' : Order) (hid : o'.id = o.id) (oid : String) :
    ((w.record e).saveOrder o').compensations oid
      = if oid = k then o'.compensationAttempts else w.compensations oid := by
  rw [compensations_saveOrder, hid, w.orders.get_key ho]
  rfl

theorem TrailMove.audited {on : Option String} {p p' : TrailPhase} {w w' : World}
    (hm : TrailMove on p w w' p') : Audited w w' := by
  cases hm with
  | quiet h => exact h.audited
  | charge _ h => exact h.audited
  | refund _ h => exact h.audited
  | @charged _ _ q res o a _ ho ha h =>
    refine Audited.trans ⟨[.chargeAnswered q res], rfl, fun oid => ?_⟩ h.audited
    rw [World.attempts_recorded ho (o.recordPaymentAttempt a) rfl,
      World.compensations_recorded ho (o.recordPaymentAttempt a) rfl]
    by_cases hid : oid = q.orderId
    · rw [if_pos hid, if_pos hid, hid, World.attempts_of_get ho, World.compensations_of_get ho]
      exact ⟨⟨[a], rfl, by simp [chargesReturned, ha]⟩, [], by simp [Order.recordPaymentAttempt],
        by simp [refundsReturned]⟩
    · rw [if_neg hid, if_neg hid]
      exact ⟨⟨[], by simp, by simp [chargesReturned, Ne.symm hid]⟩, [], by simp, rfl⟩
  | @refunded _ _ q res o a _ ho ha h =>
    refine Audited.trans ⟨[.refundAnswered q res], rfl, fun oid => ?_⟩ h.audited
    rw [World.attempts_recorded ho (o.recordCompensationAttempt a) rfl,
      World.compensations_recorded ho (o.recordCompensationAttempt a) rfl]
    by_cases hid : oid = q.orderId
    · rw [if_pos hid, if_pos hid, hid, World.attempts_of_get ho, World.compensations_of_get ho]
      exact ⟨⟨[], by simp [Order.recordCompensationAttempt], by simp [chargesReturned]⟩, [a], rfl,
        by simp [refundsReturned, ha]⟩
    · rw [if_neg hid, if_neg hid]
      exact ⟨⟨[], by simp, rfl⟩, [], by simp, by simp [refundsReturned, Ne.symm hid]⟩

/-- What a segment does to the trails of one order: nothing, or it adds the attempt its call waited
for. -/
theorem TrailMove.at_order {on : Option String} {p p' : TrailPhase} {w w' : World}
    (hm : TrailMove on p w w' p') (oid : String) :
    (w'.attempts oid = w.attempts oid ∧ w'.compensations oid = w.compensations oid)
      ∨ (∃ a, on = some oid ∧ p = .charging a.attemptNumber ∧ p' = .idle
        ∧ w'.attempts oid = w.attempts oid ++ [a] ∧ w'.compensations oid = w.compensations oid)
      ∨ ∃ a, on = some oid ∧ p = .refunding a.attemptNumber ∧ p' = .idle
        ∧ w'.attempts oid = w.attempts oid
        ∧ w'.compensations oid = w.compensations oid ++ [a] := by
  cases hm with
  | quiet h => exact .inl ⟨h.attempts oid, h.compensations oid⟩
  | charge _ h => exact .inl ⟨h.attempts oid, h.compensations oid⟩
  | refund _ h => exact .inl ⟨h.attempts oid, h.compensations oid⟩
  | @charged _ _ q res o a hon ho ha h =>
    have hattempts := h.attempts oid
    have hcompensations := h.compensations oid
    rw [World.attempts_recorded ho (o.recordPaymentAttempt a) rfl] at hattempts
    rw [World.compensations_recorded ho (o.recordPaymentAttempt a) rfl] at hcompensations
    by_cases hid : oid = q.orderId
    · subst hid
      rw [if_pos rfl] at hattempts hcompensations
      refine .inr (.inl ⟨a, hon, rfl, rfl, ?_, ?_⟩)
      · rw [hattempts, World.attempts_of_get ho]
        rfl
      · rw [hcompensations, World.compensations_of_get ho]
        rfl
    · rw [if_neg hid] at hattempts hcompensations
      exact .inl ⟨hattempts, hcompensations⟩
  | @refunded _ _ q res o a hon ho ha h =>
    have hattempts := h.attempts oid
    have hcompensations := h.compensations oid
    rw [World.attempts_recorded ho (o.recordCompensationAttempt a) rfl] at hattempts
    rw [World.compensations_recorded ho (o.recordCompensationAttempt a) rfl] at hcompensations
    by_cases hid : oid = q.orderId
    · subst hid
      rw [if_pos rfl] at hattempts hcompensations
      refine .inr (.inr ⟨a, hon, rfl, rfl, ?_, ?_⟩)
      · rw [hattempts, World.attempts_of_get ho]
        rfl
      · rw [hcompensations, World.compensations_of_get ho]
        rfl
    · rw [if_neg hid] at hattempts hcompensations
      exact .inl ⟨hattempts, hcompensations⟩

/-! ## Runs -/

section Runs

variable {τ : Type} [DecidableEq τ] {calls : τ → Call} {oid : String} {h : List (Taken τ World)}
  {φ : τ → TrailPhase} {w w' : World} {i : τ} {p : TrailPhase}

variable (calls oid) in
/-- No call on the order goes on once another call on it has come in between. -/
def NoOverlap (h : List (Taken τ World)) : Prop :=
  ∀ i j, i ≠ j → (calls i).orderId = some oid → (calls j).orderId = some oid →
    ¬ [i, j, i].Sublist (h.map Taken.thread)

/-- Behind its first `n` entries, the list is numbered by position. -/
def NumberedFrom {α : Type} (n : ℕ) (number : α → ℕ) (l : List α) : Prop :=
  (l.drop n).map number = List.range' (n + 1) (l.length - n)

theorem NumberedFrom.snoc {α : Type} {n : ℕ} {number : α → ℕ} {l : List α} {a : α}
    (hl : NumberedFrom n number l) (hn : n ≤ l.length) (ha : number a = l.length + 1) :
    NumberedFrom n number (l ++ [a]) := by
  have hlen : (l ++ [a]).length - n = l.length - n + 1 := by
    rw [List.length_append, List.length_singleton]
    omega
  rw [NumberedFrom, hlen, List.range'_1_concat, List.drop_append_of_le_length hn, List.map_append,
    hl, List.map_singleton, ha]
  congr 2
  omega

variable (calls oid) in
/-- Another call on the order has taken a step since the call's first. -/
def OvertakenBy (h : List (Taken τ World)) (t : τ) : Prop :=
  ∃ j, j ≠ t ∧ (calls j).orderId = some oid ∧ [t, j].Sublist (h.map Taken.thread)

/-- The number of the attempt the call waits for is the next one. -/
def TrailPhase.Next (w : World) (oid : String) : TrailPhase → Prop
  | .idle => True
  | .charging n => n = (w.attempts oid).length + 1
  | .refunding n => n = (w.compensations oid).length + 1

variable (calls oid) in
/-- What holds along every run, of the trails of one order with `n` and `m` entries at first. -/
structure NumberInv (n m : ℕ) (h : List (Taken τ World)) (φ : τ → TrailPhase) (w : World) :
    Prop where
  begun : ∀ t, φ t ≠ .idle → t ∈ h.map Taken.thread
  next : ∀ t, (calls t).orderId = some oid → (φ t).Next w oid ∨ OvertakenBy calls oid h t
  attempts_le : n ≤ (w.attempts oid).length
  compensations_le : m ≤ (w.compensations oid).length
  numbered : NoOverlap calls oid h → NumberedFrom n PaymentAttempt.attemptNumber (w.attempts oid)
    ∧ NumberedFrom m CompensationAttempt.attemptNumber (w.compensations oid)

omit [DecidableEq τ] in
theorem NoOverlap.of_snoc {s : Taken τ World} (hno : NoOverlap calls oid (h ++ [s])) :
    NoOverlap calls oid h := by
  intro i j hne hi hj hsub
  refine hno i j hne hi hj ?_
  rw [List.map_append]
  exact hsub.trans (List.sublist_append_left _ _)

omit [DecidableEq τ] in
/-- A call that has been overtaken takes no further step. -/
theorem NoOverlap.not_overtaken (hno : NoOverlap calls oid (h ++ [⟨i, w, w'⟩]))
    (hi : (calls i).orderId = some oid) : ¬ OvertakenBy calls oid h i := by
  rintro ⟨j, hne, hj, hsub⟩
  refine hno i j hne.symm hi hj ?_
  rw [List.map_append]
  exact hsub.append (List.Sublist.refl [i])

theorem NumberInv.step {n m : ℕ} (hinv : NumberInv calls oid n m h φ w)
    (hm : TrailMove (calls i).orderId (φ i) w w' p) :
    NumberInv calls oid n m (h ++ [⟨i, w, w'⟩]) (Function.update φ i p) w' := by
  have hthreads : (h ++ [(⟨i, w, w'⟩ : Taken τ World)]).map Taken.thread
      = h.map Taken.thread ++ [i] := by simp
  have hover : ∀ t, OvertakenBy calls oid h t → OvertakenBy calls oid (h ++ [⟨i, w, w'⟩]) t := by
    rintro t ⟨j, hne, hj, hsub⟩
    exact ⟨j, hne, hj, hthreads ▸ hsub.trans (List.sublist_append_left _ _)⟩
  have hcases := hm.at_order oid
  refine ⟨fun t ht => ?_, fun t ht => ?_, ?_, ?_, fun hno => ?_⟩
  · rw [hthreads, List.mem_append]
    rcases eq_or_ne t i with rfl | hne
    · exact .inr (List.mem_singleton_self t)
    · rw [Function.update_of_ne hne] at ht
      exact .inl (hinv.begun t ht)
  · rcases eq_or_ne t i with rfl | hne
    · rw [Function.update_self]
      refine .inl ?_
      generalize φ t = φt at hm
      cases hm with
      | charge hon hsame =>
        obtain rfl := Option.some.inj (hon.symm.trans ht)
        rw [TrailPhase.Next, hsame.attempts]
      | refund hon hsame =>
        obtain rfl := Option.some.inj (hon.symm.trans ht)
        rw [TrailPhase.Next, hsame.compensations]
      | _ => trivial
    · rw [Function.update_of_ne hne]
      by_cases hi : (calls i).orderId = some oid
      · by_cases hφ : φ t = .idle
        · exact .inl (by rw [hφ]; trivial)
        · refine .inr ⟨i, hne.symm, hi, ?_⟩
          rw [hthreads]
          exact (List.singleton_sublist.2 (hinv.begun t hφ)).append (.refl [i])
      · -- a call on another order leaves the trails of this one
        rcases hcases with ⟨ha, hc⟩ | ⟨a, hon, -⟩ | ⟨a, hon, -⟩
        · refine (hinv.next t ht).imp (fun hnext => ?_) (hover t)
          unfold TrailPhase.Next at hnext ⊢
          rwa [ha, hc]
        · exact absurd hon hi
        · exact absurd hon hi
  · have hle := hinv.attempts_le
    rcases hcases with ⟨ha, -⟩ | ⟨a, -, -, -, ha, -⟩ | ⟨a, -, -, -, ha, -⟩ <;> rw [ha]
    · exact hle
    · rw [List.length_append]
      omega
    · exact hle
  · have hle := hinv.compensations_le
    rcases hcases with ⟨-, hc⟩ | ⟨a, -, -, -, -, hc⟩ | ⟨a, -, -, -, -, hc⟩ <;> rw [hc]
    · exact hle
    · exact hle
    · rw [List.length_append]
      omega
  · obtain ⟨hpayments, hcompensations⟩ := hinv.numbered hno.of_snoc
    rcases hcases with ⟨ha, hc⟩ | ⟨a, hon, hφ, -, ha, hc⟩ | ⟨a, hon, hφ, -, ha, hc⟩ <;> rw [ha, hc]
    · exact ⟨hpayments, hcompensations⟩
    · have hnext := (hinv.next i hon).resolve_right (hno.not_overtaken hon)
      rw [hφ] at hnext
      exact ⟨hpayments.snoc hinv.attempts_le hnext, hcompensations⟩
    · have hnext := (hinv.next i hon).resolve_right (hno.not_overtaken hon)
      rw [hφ] at hnext
      exact ⟨hpayments, hcompensations.snoc hinv.compensations_le hnext⟩

variable (calls oid) in
/-- A schedule that comes back to no call after another one on the order has no overlap. -/
theorem noOverlap_of_history {c c' : Config τ World WorkflowError Reply} {is : List τ}
    (hh : c.history is = some (h, c'))
    (his : ∀ i j, i ≠ j → (calls i).orderId = some oid → (calls j).orderId = some oid →
      ¬ [i, j, i].Sublist is) : NoOverlap calls oid h := by
  intro i j hne hi hj
  rw [Config.history_threads is hh]
  exact his i j hne hi hj

/-- The trails of every order only grow in the step. -/
def TrailsGrow (s : Taken τ World) : Prop :=
  ∀ oid, s.before.attempts oid <+: s.after.attempts oid
    ∧ s.before.compensations oid <+: s.after.compensations oid

omit [DecidableEq τ] in
theorem Audited.trailsGrow {t : τ} (haudited : Audited w w') : TrailsGrow ⟨t, w, w'⟩ := by
  obtain ⟨l, -, hnew⟩ := haudited
  intro oid
  obtain ⟨⟨a, ha, -⟩, b, hb, -⟩ := hnew oid
  exact ⟨⟨a, ha.symm⟩, b, hb.symm⟩

/-- Any number of calls, interleaved in any way: the audit trails of every order grow by just the
answers that come in, one attempt for each, and are numbered in their order where no two calls on
the order overlap. -/
theorem audit_trail_faithful (calls : τ → Call) (w₀ : World)
    {c : Config τ World WorkflowError Reply} (hrun : (started calls w₀).Run h c) :
    (∀ s ∈ h, TrailsGrow s) ∧ Audited w₀ c.world
      ∧ ∀ oid, NoOverlap calls oid h →
        NumberedFrom (w₀.attempts oid).length PaymentAttempt.attemptNumber (c.world.attempts oid)
          ∧ NumberedFrom (w₀.compensations oid).length CompensationAttempt.attemptNumber
            (c.world.compensations oid) := by
  have hinv : ∃ φ, (∀ i, Trails (calls i).orderId (c.thread i) (φ i)) ∧ (∀ s ∈ h, TrailsGrow s)
      ∧ Audited w₀ c.world ∧ ∀ oid, NumberInv calls oid (w₀.attempts oid).length
        (w₀.compensations oid).length h φ c.world := by
    refine Follows.run (T := fun i => TrailMove (calls i).orderId) (F := fun _ _ s => s = .idle)
      (p := fun _ => .idle) (I := fun h φ w => (∀ s ∈ h, TrailsGrow s) ∧ Audited w₀ w
        ∧ ∀ oid, NumberInv calls oid (w₀.attempts oid).length (w₀.compensations oid).length h φ w)
      (fun i => (calls i).trails) ⟨by simp, (sameTrails_refl w₀).audited, fun oid => ?_⟩ ?_ hrun
    · refine ⟨by simp, fun t _ => .inl trivial, le_rfl, le_rfl, fun _ => ?_⟩
      simp [NumberedFrom, started]
    · rintro h φ w i w' p ⟨hgrow, haudited, hnumber⟩ hm
      refine ⟨fun s hs => ?_, haudited.trans hm.audited, fun oid => (hnumber oid).step hm⟩
      rcases List.mem_append.1 hs with hs | hs
      · exact hgrow s hs
      · rw [List.mem_singleton.1 hs]
        exact hm.audited.trailsGrow
  obtain ⟨φ, -, hgrow, haudited, hnumber⟩ := hinv
  exact ⟨hgrow, haudited, fun oid hno => (hnumber oid).numbered hno⟩

end Runs

/-- A checkout, a payment that is declined, and one that goes through. -/
def secondCardCalls : Fin 3 → Call
  | 0 => checkoutAt 1000 orderA
  | 1 => payAt 2000 "a" "k1" ⟨.declined, none, none⟩
  | 2 => payAt 3000 "a" "k2" ⟨.success, some "t1", none⟩

theorem secondCard_isSome : ((started secondCardCalls heldWorld).history
    [0, 0, 0, 1, 1, 1, 1, 1, 2, 2, 2, 2, 2, 2]).isSome := by decide

/-- One after the other, the two are recorded as the first and the second. -/
theorem audit_trail_secondCard :
    ∃ h c, (started secondCardCalls heldWorld).Run h c
      ∧ NoOverlap secondCardCalls "a" h
      ∧ (c.world.attempts "a").map PaymentAttempt.answer
        = [("k1", .declined, none), ("k2", .success, some "t1")]
      ∧ NumberedFrom 0 PaymentAttempt.attemptNumber (c.world.attempts "a") := by
  have hsome := Option.eq_some_of_isSome secondCard_isSome
  have hrun := Config.run_of_history _ hsome
  have hno := noOverlap_of_history secondCardCalls "a" hsome (by decide)
  obtain ⟨-, -, hnumbered⟩ := audit_trail_faithful secondCardCalls heldWorld hrun
  exact ⟨_, _, hrun, hno, rfl, (hnumbered "a" hno).1⟩

end LaunchPad
