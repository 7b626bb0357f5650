import LaunchPad.Proofs.ConfirmedSeat
import LaunchPad.Proofs.Repertoire
import LaunchPad.Lib.Protocol

/-!
# Redelivered callbacks

A callback is let through unless its own instance has seen the event, looks its order and the hold
up, and applies its payload in one segment; only that segment changes an order or a reservation.
Whether it does is decided by the state it finds (`PaymentWebhookPayload.TakesEffect`). So an event
takes effect twice just where a second delivery is let through, by another instance or while the
first is on its way, and finds a state its payload changes (`event_once_iff`).
-/

namespace LaunchPad

open Interleave Rows Relation

/-- The payload changes an order in this state, with this hold. -/
def PaymentWebhookPayload.TakesEffect (payload : PaymentWebhookPayload) (env : WebhookEnv)
    (o : Order) (r : Reservation) : Prop :=
  if payload.status = .success then
    o.status ≠ .confirmed ∧ if isExpired o r env.now
      then ¬ (o.status = .refundRequired
        ∧ o.providerTransactionId = some payload.providerTransactionId)
      else o.Confirmable
  else o.status = .paymentPending

/-- Neither an order nor a reservation changes. -/
def Untouched (w w' : World) : Prop := w'.orders = w.orders ∧ w'.reservations = w.reservations

section Spec

variable {τ : Type} [DecidableEq τ]

/-- The call is a delivery of the event. -/
def Delivers (calls : τ → Call) (eventId : String) (t : τ) : Prop :=
  ∃ env self payload, calls t = .handlePaymentWebhook env self payload ∧ payload.eventId = eventId

/-- At most one delivery of the event changes an order or a reservation. -/
def EventOnce (calls : τ → Call) (eventId : String) (h : List (Taken τ World)) : Prop :=
  ∀ s ∈ h, ∀ s' ∈ h, Delivers calls eventId s.thread → Delivers calls eventId s'.thread →
    ¬ Untouched s.before s.after → ¬ Untouched s'.before s'.after → s.thread = s'.thread

/-- The step is a delivery's third, in which it applies its payload, to a state the payload
changes. -/
def Applies (calls : τ → Call) (eventId : String) (h : List (Taken τ World)) (s : Taken τ World) :
    Prop :=
  ∃ env self payload, calls s.thread = .handlePaymentWebhook env self payload
    ∧ payload.eventId = eventId ∧ (stepsOf s.thread h).length = 2
    ∧ ∃ o r, s.before.orders.get payload.orderId = some o
      ∧ s.before.reservations.get o.reservationId = some r ∧ payload.TakesEffect env o r

/-- A delivery finds a state its payload changes only where no other delivery of the event has. -/
def AppliesAlone (calls : τ → Call) (eventId : String) (h : List (Taken τ World))
    (s : Taken τ World) : Prop :=
  Applies calls eventId h s →
    ∀ h₁ s₁, h₁ ++ [s₁] <+: h → Applies calls eventId h₁ s₁ → s₁.thread = s.thread

end Spec

/-! ## The segment that applies the payload -/

theorem untouched_refl (w : World) : Untouched w w := ⟨rfl, rfl⟩

theorem World.saveOrder_untouched {w : World} {o : Order} (ho : w.orders.get o.id = some o) :
    Untouched w (w.saveOrder o) := ⟨Repository.save_get ho, rfl⟩

theorem orderRepoSave_untouched {id : String} {w w' : World} {r : Except WorkflowError Unit}
    (h : orderRepoSave id w = some (r, w')) : Untouched w w' := by
  obtain ⟨o, ho, rfl, ⟨e, -, -, rfl⟩ | ⟨o', hf, -, rfl⟩⟩ := mutateOrder_eq_some h
  · exact untouched_refl w'
  · obtain rfl := Except.ok.inj hf
    exact World.saveOrder_untouched ho

/-- An order that is stored anew, with another status or transaction, is a change. -/
theorem touched_of_orders {w w' : World} {o o' : Order} (ho : w.orders.get o.id = some o)
    (hid : o'.id = o.id) (h : w'.orders = (w.saveOrder o').orders) :
    Untouched w w' → o' = o := by
  rintro ⟨h', -⟩
  have hget : (w.orders.save o').get o'.id = w.orders.get o'.id :=
    congrArg (·.get o'.id) (h.symm.trans h')
  rw [Repository.get_save_self, hid, ho] at hget
  exact Option.some.inj hget

theorem derefOrder_bind {α : Type} {id : String} {w : World} {o : Order}
    (ho : w.orders.get id = some o) (f : Order → Segment α) : (derefOrder id >>= f) w = f o w := by
  simp [Sync.bind_apply, derefOrder, ho]

theorem derefReservation_bind {α : Type} {id : String} {w : World} {r : Reservation}
    (hr : w.reservations.get id = some r) (f : Reservation → Segment α) :
    (derefReservation id >>= f) w = f r w := by
  simp [Sync.bind_apply, derefReservation, hr]

section Tail

variable {G : World → World → Prop} {α β : Type}

/-- What the segment does is within `G`, whether it throws or not. -/
abbrev Keeps (G : World → World → Prop) (x : Segment α) : Prop := ∀ w, x.wp (fun _ w' => G w w') w

def SameOrders (w w' : World) : Prop := w'.orders = w.orders

theorem keeps_bind (htrans : ∀ w₁ w₂ w₃, G w₁ w₂ → G w₂ w₃ → G w₁ w₃) {x : Segment β}
    {f : β → Segment α} (hx : Keeps G x) (hf : ∀ b, Keeps G (f b)) : Keeps G (x >>= f) := by
  intro w r w' h
  rcases Sync.bind_eq_some.1 h with ⟨b, w₁, h₁, h₂⟩ | ⟨e, h₁, -⟩
  · exact htrans _ _ _ (hx w _ _ h₁) (hf b w₁ _ _ h₂)
  · exact hx w _ _ h₁

theorem sameOrders_trans (w₁ w₂ w₃ : World) (h : SameOrders w₁ w₂) (h' : SameOrders w₂ w₃) :
    SameOrders w₁ w₃ := h'.trans h

theorem untouched_trans (w₁ w₂ w₃ : World) (h : Untouched w₁ w₂) (h' : Untouched w₂ w₃) :
    Untouched w₁ w₃ := ⟨h'.1.trans h.1, h'.2.trans h.2⟩

theorem keeps_pure (a : α) : Keeps Untouched (pure a : Segment α) := by
  intro w
  rw [Sync.wp_pure]
  exact untouched_refl w

theorem keeps_addEvent (self : ℕ) (eventId : String) : Keeps Untouched (addEvent self eventId) := by
  intro w
  rw [addEvent, Sync.wp_modify]
  exact ⟨rfl, rfl⟩

theorem keeps_orderRepoSave (id : String) : Keeps Untouched (orderRepoSave id) :=
  fun _ _ _ h => orderRepoSave_untouched h

/-- The event is noted and the order saved as it is. -/
theorem keeps_note (self : ℕ) (eventId id : String) :
    Keeps Untouched (do addEvent self eventId; orderRepoSave id) :=
  keeps_bind untouched_trans (keeps_addEvent self eventId) fun _ => keeps_orderRepoSave id

theorem Keeps.sameOrders {x : Segment α} (h : Keeps Untouched x) : Keeps SameOrders x :=
  fun w r w' hx => (h w r w' hx).1

theorem keeps_mutateReservation (id : String)
    (f : Reservation → Except WorkflowError Reservation) :
    Keeps SameOrders (mutateReservation id f) := by
  intro w r w' h
  obtain ⟨v, -, -, ⟨e, -, -, rfl⟩ | ⟨v', -, -, rfl⟩⟩ := mutateReservation_eq_some h <;> rfl

theorem keeps_derefReservation (id : String) : Keeps Untouched (derefReservation id) := by
  intro w r w' h
  simp only [derefReservation, Option.map_eq_some_iff, Prod.mk.injEq] at h
  obtain ⟨v, -, -, rfl⟩ := h
  exact untouched_refl w

end Tail

theorem Order.markRefundRequired_eq_self {o : Order} {t : String} :
    o.markRefundRequired t = o ↔ o.status = .refundRequired ∧ o.providerTransactionId = some t := by
  constructor
  · intro h
    rw [← h]
    exact ⟨rfl, rfl⟩
  · rintro ⟨hs, ht⟩
    cases o
    simp_all [markRefundRequired]

/-- A method that refuses leaves everything; one that makes another order of it changes it, whatever
follows in the segment. -/
theorem mutateOrder_touches {id : String} {f : Order → Except WorkflowError Order} {α : Type}
    {tail : Segment α} (htail : Keeps SameOrders tail) {w w' : World} {o : Order}
    (ho : w.orders.get id = some o) (hid : ∀ o', f o = .ok o' → o'.id = o.id)
    {r : Except WorkflowError α} (h : (mutateOrder id f >>= fun _ => tail) w = some (r, w')) :
    (∃ e, f o = .error e ∧ w' = w) ∨ ∃ o', f o = .ok o' ∧ (Untouched w w' → o' = o) := by
  rcases Sync.bind_eq_some.1 h with ⟨_, w₁, h₁, h₂⟩ | ⟨e, h₁, -⟩ <;>
    obtain ⟨o₁, ho₁, hoid, ⟨e', hf, hr, hw⟩ | ⟨o', hf, hr, hw⟩⟩ := mutateOrder_eq_some h₁ <;>
    obtain rfl := Option.some.inj (ho.symm.trans ho₁) <;> cases hr
  · subst hw
    exact .inr ⟨o', hf, touched_of_orders (hoid ▸ ho) (hid o' hf) (htail _ _ _ h₂)⟩
  · exact .inl ⟨_, hf, hw⟩

/-- A late payment marks its order, which may be marked already. -/
theorem late_touches (self : ℕ) {payload : PaymentWebhookPayload} {w w' : World} {o : Order}
    (ho : w.orders.get payload.orderId = some o) {res : Except WorkflowError WebhookStep}
    (h : (do
      mutateOrder payload.orderId fun o => .ok (o.markRefundRequired payload.providerTransactionId)
      addEvent self payload.eventId
      orderRepoSave payload.orderId
      pure .late : Segment WebhookStep) w = some (res, w')) :
    Untouched w w' ↔ o.status = .refundRequired
      ∧ o.providerTransactionId = some payload.providerTransactionId := by
  have hoid : o.id = payload.orderId := w.orders.get_key ho
  have htail : Keeps Untouched (do
      addEvent self payload.eventId
      orderRepoSave payload.orderId
      pure .late : Segment WebhookStep) :=
    keeps_bind untouched_trans (keeps_addEvent _ _) fun _ =>
      keeps_bind untouched_trans (keeps_orderRepoSave _) fun _ => keeps_pure _
  rw [← Order.markRefundRequired_eq_self]
  constructor
  · intro hw
    rcases mutateOrder_touches htail.sameOrders ho
      (fun o' hf => by rw [← Except.ok.inj hf]; rfl) h with
      ⟨e, hf, -⟩ | ⟨o', hf, hne⟩
    · cases hf
    · rw [Except.ok.inj hf]
      exact hne hw
  · intro hsame
    rcases Sync.bind_eq_some.1 h with ⟨_, w₁, h₁, h₂⟩ | ⟨e, h₁, -⟩ <;>
      obtain ⟨o₁, ho₁, -, ⟨e', hf, hr, hw⟩ | ⟨o', hf, hr, hw⟩⟩ := mutateOrder_eq_some h₁ <;>
      obtain rfl := Option.some.inj (ho.symm.trans ho₁) <;> cases hr <;> cases hf
    rw [hsame] at hw
    subst hw
    exact untouched_trans _ _ _ (World.saveOrder_untouched (hoid ▸ ho)) (htail _ _ _ h₂)

/-- A payment in time confirms an order that can be confirmed, whatever becomes of the hold. -/
theorem timely_touches (env : WebhookEnv) (self : ℕ) {payload : PaymentWebhookPayload}
    {rid : String}
    {w w' : World} {o : Order} (ho : w.orders.get payload.orderId = some o)
    (hs : o.status ≠ .confirmed) {res : Except WorkflowError WebhookStep}
    (h : (do
      mutateOrder payload.orderId fun o =>
        (·.2) <$> o.confirm (some payload.providerTransactionId) env.confirmAt
      mutateReservation rid (·.confirm env.checkAt env.later)
      addEvent self payload.eventId
      reservationRepoSave rid
      pure .confirmed : Segment WebhookStep) w = some (res, w')) :
    Untouched w w' ↔ ¬ o.Confirmable := by
  have htail : Keeps SameOrders (do
      mutateReservation rid (·.confirm env.checkAt env.later)
      addEvent self payload.eventId
      reservationRepoSave rid
      pure .confirmed : Segment WebhookStep) :=
    keeps_bind sameOrders_trans (keeps_mutateReservation _ _) fun _ =>
      keeps_bind sameOrders_trans (keeps_addEvent _ _).sameOrders fun _ =>
        keeps_bind sameOrders_trans (keeps_mutateReservation _ _) fun _ =>
          (keeps_pure _).sameOrders
  have hconf : ∀ o', (·.2) <$> o.confirm (some payload.providerTransactionId) env.confirmAt
      = .ok o' → o.Confirmable ∧ o'.id = o.id ∧ o'.status = .confirmed := by
    intro o' hf
    rw [Order.confirm_eq hs] at hf
    split_ifs at hf with hc <;> cases hf
    exact ⟨hc, rfl, rfl⟩
  rcases mutateOrder_touches htail ho (fun o' hf => (hconf o' hf).2.1) h with
    ⟨e, hf, rfl⟩ | ⟨o', hf, hne⟩
  · refine ⟨fun _ hc => ?_, fun _ => untouched_refl w'⟩
    rw [Order.confirm_eq hs, if_pos hc] at hf
    cases hf
  · obtain ⟨hc, -, hst⟩ := hconf o' hf
    refine ⟨fun hw => ?_, fun hno => absurd hc hno⟩
    exact absurd (hne hw ▸ hst) hs

theorem declineOrder_touches {oid rid : String} {now : Time} {tail : Segment Unit}
    (htail : Keeps Untouched tail) {w w' : World} {o : Order} (ho : w.orders.get oid = some o)
    {r : Except WorkflowError Bool} (h : declineOrder oid rid now tail w = some (r, w')) :
    Untouched w w' ↔ o.status ≠ .paymentPending := by
  have hrest : Keeps SameOrders (do
      let reservation ← derefReservation rid
      if now ≤ reservation.expiresAt then do
        mutateReservation rid (·.revertPaymentDecline)
        reservationRepoSave rid
        pure true
      else do
        tail
        pure false : Segment Bool) := by
    refine keeps_bind sameOrders_trans (keeps_derefReservation rid).sameOrders fun v => ?_
    split_ifs
    · exact keeps_bind sameOrders_trans (keeps_mutateReservation _ _) fun _ =>
        keeps_bind sameOrders_trans (keeps_mutateReservation _ _) fun _ => (keeps_pure _).sameOrders
    · exact keeps_bind sameOrders_trans htail.sameOrders fun _ => (keeps_pure _).sameOrders
  have hid : ∀ o', o.markPaymentDeclined = .ok o' → o'.id = o.id := by
    intro o' hf
    obtain ⟨-, rfl⟩ := Order.markPaymentDeclined_ok hf
    rfl
  rcases mutateOrder_touches hrest ho hid h with ⟨e, hf, rfl⟩ | ⟨o', hf, hne⟩
  · refine ⟨fun _ hs => ?_, fun _ => untouched_refl w'⟩
    simp [Order.markPaymentDeclined, hs] at hf
  · obtain ⟨hs, rfl⟩ := Order.markPaymentDeclined_ok hf
    refine ⟨fun hw => ?_, fun hno => absurd hs hno⟩
    have hst := congrArg Order.status (hne hw)
    simp [hs] at hst

/-- What the segment does is decided by the order and the hold it finds. -/
theorem applyWebhook_touches (env : WebhookEnv) (self : ℕ) {payload : PaymentWebhookPayload}
    {rid : String} {w w' : World} {res : Except WorkflowError WebhookStep}
    (h : applyWebhook env self payload rid w = some (res, w')) :
    ∃ o r, w.orders.get payload.orderId = some o ∧ w.reservations.get rid = some r
      ∧ (Untouched w w' ↔ ¬ payload.TakesEffect env o r) := by
  rcases ho : w.orders.get payload.orderId with _ | o
  · simp [applyWebhook, Sync.bind_apply, derefOrder, ho] at h
  rcases hr : w.reservations.get rid with _ | r
  · simp [applyWebhook, Sync.bind_apply, derefOrder, derefReservation, ho, hr] at h
  refine ⟨o, r, rfl, rfl, ?_⟩
  rw [applyWebhook, derefOrder_bind ho, derefReservation_bind hr] at h
  unfold PaymentWebhookPayload.TakesEffect
  by_cases hs : o.status = .confirmed
  · rw [if_pos hs] at h
    have hw := keeps_bind untouched_trans (keeps_addEvent self payload.eventId)
      (fun _ => keeps_pure WebhookStep.alreadyConfirmed) w _ _ h
    simp [hs, hw]
  rw [if_neg hs] at h
  by_cases hp : payload.status = .success
  · rw [if_pos hp] at h ⊢
    by_cases hlate : isExpired o r env.now
    · rw [if_pos hlate] at h ⊢
      rw [late_touches self ho h]
      simp [hs]
    · rw [if_neg hlate] at h ⊢
      rw [timely_touches env self ho hs h]
      simp [hs]
  · rw [if_neg hp] at h ⊢
    have hnote := keeps_note self payload.eventId payload.orderId
    rcases Sync.bind_eq_some.1 h with ⟨b, w₁, h₁, h₂⟩ | ⟨e, h₁, -⟩
    · simp only [Sync.pure_apply, Option.some.injEq, Prod.mk.injEq] at h₂
      rw [← h₂.2, declineOrder_touches hnote ho h₁]
    · rw [declineOrder_touches hnote ho h₁]

/-! ## A delivery's phases -/

inductive HookPhase
  | start
  | duplicate
  | found (reservationId : String)
  | apply (reservationId : String)
  | saving
  | ended
  /-- The call is not a delivery. -/
  | other

/-- The segments of a delivery. -/
inductive HookMove (env : WebhookEnv) (payload : PaymentWebhookPayload) :
    HookPhase → World → World → HookPhase → Prop
  | seen {w : World} : HookMove env payload .start w w .duplicate
  | orderFound {w : World} {o : Order} (ho : w.orders.get payload.orderId = some o) :
      HookMove env payload .start w w (.found o.reservationId)
  | noOrder {w : World} : HookMove env payload .start w w .ended
  | answered {w : World} : HookMove env payload .duplicate w w .ended
  | holdFound {w : World} {rid : String} : HookMove env payload (.found rid) w w (.apply rid)
  | noHold {w : World} {rid : String} : HookMove env payload (.found rid) w w .ended
  | applied {w w' : World} {rid : String} {o : Order} {r : Reservation}
      (ho : w.orders.get payload.orderId = some o) (hr : w.reservations.get rid = some r)
      (htouches : Untouched w w' ↔ ¬ payload.TakesEffect env o r) (hlinks : KeepsLinks w w') :
      HookMove env payload (.apply rid) w w' .saving
  | saves {w w' : World} (h : Untouched w w') : HookMove env payload .saving w w' .saving

def Call.hookMove : Call → HookPhase → World → World → HookPhase → Prop
  | .handlePaymentWebhook env _ payload => HookMove env payload
  | _ => fun s w w' s' => s = .other ∧ s' = .other ∧ KeepsLinks w w'

def Call.hookStart : Call → HookPhase
  | .handlePaymentWebhook _ _ _ => .start
  | _ => .other

section Delivery

variable {env : WebhookEnv} {payload : PaymentWebhookPayload} {α : Type}

abbrev Hooks (env : WebhookEnv) (payload : PaymentWebhookPayload) {α : Type} (p : Flow α)
    (s : HookPhase) : Prop := Follows (HookMove env payload) (fun _ _ => True) p s

/-- A segment in which the state is saved as it is. -/
theorem hooks_saves {x : Segment Unit} (hx : Keeps Untouched x) (a : α) :
    Hooks env payload (do Async.await x; pure a : Flow α) .saving :=
  Follows.await_bind (K := fun _ _ => True)
    (fun w r w' h => ⟨.saving, .saves (hx w r w' h), trivial⟩) (fun _ _ _ => trivial)
    fun _ _ _ => trivial

/-- The event had been seen: its answer only reads. -/
theorem hooks_duplicate (found : Option Order) (f : OrderStatus → α) :
    Hooks env payload (do let status ← Async.await (duplicateStatus found); pure (f status) :
      Flow α)
      .duplicate := by
  refine Follows.await_bind (K := fun _ _ => True) (fun w r w' h => ⟨.ended, ?_, trivial⟩)
    (fun _ _ _ => trivial) fun _ _ _ => trivial
  have hw : w' = w := by
    rcases found with _ | o
    · simp only [duplicateStatus, Sync.pure_apply, Option.some.injEq, Prod.mk.injEq] at h
      exact h.2.symm
    · rcases ho : w.orders.get o.id with _ | o' <;>
        simp [duplicateStatus, Sync.bind_apply, derefOrder, ho] at h
      exact h.2.symm
  exact hw ▸ .answered

/-- The reservation of the order is looked up. -/
theorem hooks_findHold {rid text : String} {k : Reservation → Flow α}
    (hk : ∀ v : Reservation, v.id = rid → Hooks env payload (k v) (.apply rid)) :
    Hooks env payload (do
      let found ← Async.await (Sync.read (·.reservations.get rid))
      let v ← orNotFound text rid found
      k v) (.found rid) := by
  refine Follows.await_bind (K := fun r s => ∀ v, r = .ok (some v) → v.id = rid ∧ s = .apply rid)
    ?_ ?_ fun _ _ _ => trivial
  · intro w r w' h
    simp only [Sync.read_apply, Option.some.injEq, Prod.mk.injEq] at h
    obtain ⟨rfl, rfl⟩ := h
    rcases hv : w.reservations.get rid with _ | v
    · exact ⟨.ended, .noHold, by simp⟩
    · refine ⟨.apply rid, .holdFound, ?_⟩
      rintro _ ⟨⟩
      exact ⟨w.reservations.get_key hv, rfl⟩
  · rintro (_ | v) s hs
    · exact Follows.throw trivial
    · obtain ⟨hv, rfl⟩ := hs v rfl
      exact hk v hv

/-- The payload is applied. -/
theorem hooks_apply (self : ℕ) {rid : String} {k : WebhookStep → Flow α}
    (hk : ∀ step, Hooks env payload (k step) .saving) :
    Hooks env payload (Async.await (applyWebhook env self payload rid) >>= k) (.apply rid) := by
  refine Follows.await_bind (K := fun _ s => s = .saving) ?_ (fun step s hs => hs ▸ hk step)
    fun _ _ _ => trivial
  intro w r w' h
  obtain ⟨o, v, ho, hv, hiff⟩ := applyWebhook_touches env self h
  have huses : Uses ⟨False, some env.checkAt, none⟩ _ (applyWebhook env self payload rid) :=
    uses_applyWebhook env self payload _ rfl
  exact ⟨.saving, .applied ho hv hiff (keepsLinks_of_uses huses h), rfl⟩

theorem hooks_handlePaymentWebhook (self : ℕ) :
    Hooks env payload (handlePaymentWebhook env self payload) .start := by
  refine Follows.await_bind (K := fun r s => ∀ seen found, r = .ok (seen, found) →
    (seen = true → s = .duplicate)
      ∧ (seen = false → ∀ o, found = some o → s = .found o.reservationId)) ?_ ?_
        fun _ _ _ => trivial
  · intro w r w' h
    simp only [Sync.read_apply, Option.some.injEq, Prod.mk.injEq] at h
    obtain ⟨rfl, rfl⟩ := h
    by_cases hseen : payload.eventId ∈ w.processedWebhookEvents self
    · exact ⟨.duplicate, .seen, by rintro _ _ ⟨⟩; simp [hseen]⟩
    · rcases ho : w.orders.get payload.orderId with _ | o
      · exact ⟨.ended, .noOrder, by rintro _ _ ⟨⟩; simp [hseen]⟩
      · exact ⟨.found o.reservationId, .orderFound ho, by rintro _ _ ⟨⟩; simp [hseen]⟩
  rintro ⟨seen, found⟩ s hs
  obtain ⟨hdup, hfound⟩ := hs seen found rfl
  cases seen with
  | true =>
    rw [hdup rfl]
    exact hooks_duplicate found _
  | false =>
    rcases found with _ | o
    · exact Follows.throw trivial
    rw [hfound rfl o rfl]
    refine hooks_findHold fun v hv => ?_
    rw [hv]
    refine hooks_apply self ?_
    rintro (_ | _ | _ | reverted)
    · exact Follows.pure trivial
    · exact Follows.pure trivial
    · exact hooks_saves (keeps_orderRepoSave _) _
    · cases reverted with
      | false => exact Follows.pure trivial
      | true => exact hooks_saves (keeps_note _ _ _) _

end Delivery

theorem Call.hooks (c : Call) : Follows c.hookMove (fun _ _ => True) c.program c.hookStart := by
  have hother : Follows (fun s w w' s' => s = .other ∧ s' = .other ∧ KeepsLinks w w')
      (fun _ _ => True) c.program HookPhase.other :=
    Follows.of_each (each_call c)
      (fun _ _ huses _ _ _ hact => ⟨rfl, rfl, keepsLinks_of_uses huses hact⟩) fun _ => trivial
  cases c with
  | handlePaymentWebhook env self payload =>
    exact Follows.bind (hooks_handlePaymentWebhook self) (fun _ _ _ => Follows.pure trivial)
      fun _ _ _ => trivial
  | initiateCheckout env command => exact hother
  | processPayment env command => exact hother
  | compensateOrder env oid x reason => exact hother
  | retryCompensation env oid => exact hother
  | expire now later rid => exact hother

/-! ## Runs -/

section Runs

variable {τ : Type} [DecidableEq τ] {calls : τ → Call} {eventId : String}
  {h : List (Taken τ World)} {w : World}

/-- How many steps a delivery in this phase has taken. -/
def HookPhase.Fits (n : ℕ) : HookPhase → Prop
  | .start => n = 0
  | .duplicate => n = 1
  | .found _ => n = 1
  | .apply _ => n = 2
  | .saving => 3 ≤ n
  | .ended => True
  | .other => True

/-- The hold that a delivery has found is still its order's, and what each delivery of the event
has changed so far was decided by the state it found. -/
structure HookInv (calls : τ → Call) (eventId : String) (h : List (Taken τ World))
    (φ : τ → HookPhase) (w : World) : Prop where
  fits : ∀ t, (φ t).Fits (stepsOf t h).length
  link : ∀ t env self payload, calls t = .handlePaymentWebhook env self payload →
    ∀ rid, φ t = .found rid ∨ φ t = .apply rid →
      ∃ o, w.orders.get payload.orderId = some o ∧ o.reservationId = rid
  touched : ∀ h₁ s, h₁ ++ [s] <+: h → Delivers calls eventId s.thread →
    (¬ Untouched s.before s.after ↔ Applies calls eventId h₁ s)

theorem hookMove_keepsLinks {c : Call} {p p' : HookPhase} {w w' : World}
    (hT : c.hookMove p w w' p') : KeepsLinks w w' := by
  rcases hc : c <;> rw [hc] at hT
  case handlePaymentWebhook env self payload =>
    have hm : HookMove env payload p w w' p' := hT
    cases hm with
    | applied ho hr htouches hlinks => exact hlinks
    | saves h => exact keepsLinks_of_orders h.1
    | _ => exact keepsLinks_of_orders rfl
  all_goals exact hT.2.2

theorem hookMove_fits {c : Call} {p p' : HookPhase} {w w' : World} {n : ℕ}
    (hT : c.hookMove p w w' p') (hfit : p.Fits n) : p'.Fits (n + 1) := by
  rcases hc : c <;> rw [hc] at hT
  case handlePaymentWebhook env self payload =>
    have hm : HookMove env payload p w w' p' := hT
    cases hm <;> simp only [HookPhase.Fits] at hfit ⊢ <;> omega
  all_goals
    obtain ⟨-, rfl, -⟩ := hT
    trivial

/-- A delivery changes an order or a reservation in the step that applies its payload, where the
payload changes what it finds, and in no other. -/
theorem hookMove_touches {φ : τ → HookPhase} {i : τ} {w' : World} {p : HookPhase}
    (hI : HookInv calls eventId h φ w) (hT : (calls i).hookMove (φ i) w w' p)
    (hi : Delivers calls eventId i) :
    ¬ Untouched w w' ↔ Applies calls eventId h (⟨i, w, w'⟩ : Taken τ World) := by
  obtain ⟨env, self, payload, hc, hev⟩ := hi
  rw [hc] at hT
  have hm : HookMove env payload (φ i) w w' p := hT
  have hfit := hI.fits i
  have hlink := hI.link i env self payload hc
  have hidle : Untouched w w' → (stepsOf i h).length ≠ 2 →
      (¬ Untouched w w' ↔ Applies calls eventId h (⟨i, w, w'⟩ : Taken τ World)) := by
    intro hw hlen
    refine ⟨fun hn => absurd hw hn, ?_⟩
    rintro ⟨-, -, -, -, -, hlen', -⟩
    exact absurd hlen' hlen
  generalize φ i = q at hm hfit hlink
  cases hm with
  | seen =>
    change (stepsOf i h).length = 0 at hfit
    exact hidle (untouched_refl w) (by omega)
  | orderFound ho =>
    change (stepsOf i h).length = 0 at hfit
    exact hidle (untouched_refl w) (by omega)
  | noOrder =>
    change (stepsOf i h).length = 0 at hfit
    exact hidle (untouched_refl w) (by omega)
  | answered =>
    change (stepsOf i h).length = 1 at hfit
    exact hidle (untouched_refl w) (by omega)
  | holdFound =>
    change (stepsOf i h).length = 1 at hfit
    exact hidle (untouched_refl w) (by omega)
  | noHold =>
    change (stepsOf i h).length = 1 at hfit
    exact hidle (untouched_refl w) (by omega)
  | saves hw =>
    change 3 ≤ (stepsOf i h).length at hfit
    exact hidle hw (by omega)
  | @applied _ _ rid o r ho hr htouches hlinks =>
    obtain ⟨o₁, ho₁, hrid⟩ := hlink rid (.inr rfl)
    obtain rfl := Option.some.inj (ho.symm.trans ho₁)
    subst hrid
    rw [htouches, not_not]
    constructor
    · exact fun heff => ⟨env, self, payload, hc, hev, hfit, o, r, ho, hr, heff⟩
    · rintro ⟨env', self', payload', hc', -, -, o', r', ho', hr', heff⟩
      obtain ⟨rfl, rfl, rfl⟩ := Call.handlePaymentWebhook.inj (hc.symm.trans hc')
      obtain rfl := Option.some.inj (ho.symm.trans ho')
      obtain rfl := Option.some.inj (hr.symm.trans hr')
      exact heff

theorem HookInv.step {φ : τ → HookPhase} {i : τ} {w' : World} {p : HookPhase}
    (hI : HookInv calls eventId h φ w) (hT : (calls i).hookMove (φ i) w w' p) :
    HookInv calls eventId (h ++ [⟨i, w, w'⟩]) (Function.update φ i p) w' := by
  refine ⟨fun t => ?_, fun t env self payload hc rid hphase => ?_, fun h₁ s hp hd => ?_⟩
  · rcases eq_or_ne i t with rfl | ht
    · have hself : stepsOf i (h ++ [⟨i, w, w'⟩]) = stepsOf i h ++ [⟨i, w, w'⟩] :=
        stepsOf_snoc_self (s := ⟨i, w, w'⟩)
      rw [Function.update_self, hself, List.length_append]
      exact hookMove_fits hT (hI.fits i)
    · rw [Function.update_of_ne ht.symm, stepsOf_snoc_of_ne ht]
      exact hI.fits t
  · have hold : ∃ o, w.orders.get payload.orderId = some o ∧ o.reservationId = rid := by
      rcases eq_or_ne t i with rfl | ht
      · rw [Function.update_self] at hphase
        rw [hc] at hT
        have hm : HookMove env payload (φ t) w w' p := hT
        have hlink := hI.link t env self payload hc
        generalize φ t = q at hm hlink
        cases hm with
        | @orderFound _ o ho =>
          rcases hphase with h | h <;> cases h
          exact ⟨o, ho, rfl⟩
        | @holdFound _ rid' =>
          rcases hphase with h | h <;> cases h
          exact hlink rid (.inl rfl)
        | _ => rcases hphase with h | h <;> cases h
      · rw [Function.update_of_ne ht] at hphase
        exact hI.link t env self payload hc rid hphase
    obtain ⟨o, ho, rfl⟩ := hold
    exact hookMove_keepsLinks hT _ o ho
  · rcases List.prefix_concat_iff.1 hp with he | hp'
    · obtain ⟨rfl, he'⟩ := List.append_inj' he rfl
      obtain rfl := List.singleton_inj.1 he'
      exact hookMove_touches hI hT hd
    · exact hI.touched h₁ s hp' hd

omit [DecidableEq τ] in
/-- The steps of a history are those after its prefixes. -/
theorem mem_iff_step {s : Taken τ World} : s ∈ h ↔ ∃ h₁, h₁ ++ [s] <+: h := by
  constructor
  · intro hs
    obtain ⟨h₁, h₂, rfl⟩ := List.append_of_mem hs
    exact ⟨h₁, h₂, by simp⟩
  · rintro ⟨h₁, hp⟩
    exact hp.subset (List.mem_append_right _ (List.mem_singleton_self s))

omit [DecidableEq τ] in
/-- A step that changes nothing, or is of no delivery of the event, is no second effect. -/
theorem EventOnce.idle {s : Taken τ World} (hP : EventOnce calls eventId h)
    (hs : Delivers calls eventId s.thread → Untouched s.before s.after) :
    EventOnce calls eventId (h ++ [s]) := by
  intro s₁ h₁ s₂ h₂ hd₁ hd₂ hc₁ hc₂
  rcases List.mem_append.1 h₁ with h₁ | h₁
  · rcases List.mem_append.1 h₂ with h₂ | h₂
    · exact hP s₁ h₁ s₂ h₂ hd₁ hd₂ hc₁ hc₂
    · obtain rfl := List.mem_singleton.1 h₂
      exact absurd (hs hd₂) hc₂
  · obtain rfl := List.mem_singleton.1 h₁
    exact absurd (hs hd₁) hc₁

omit [DecidableEq τ] in
/-- A step that changes something keeps the event's effect the only one just if those before it
were of the same delivery. -/
theorem EventOnce.snoc_iff {s : Taken τ World} (hP : EventOnce calls eventId h)
    (hd : Delivers calls eventId s.thread) (hs : ¬ Untouched s.before s.after) :
    EventOnce calls eventId (h ++ [s]) ↔ ∀ s₁ ∈ h, Delivers calls eventId s₁.thread →
      ¬ Untouched s₁.before s₁.after → s₁.thread = s.thread := by
  have hlast : s ∈ h ++ [s] := List.mem_append_right _ (List.mem_singleton_self s)
  constructor
  · exact fun hP' s₁ h₁ hd₁ hc₁ => hP' s₁ (List.mem_append_left _ h₁) s hlast hd₁ hd hc₁ hs
  · intro hold s₁ h₁ s₂ h₂ hd₁ hd₂ hc₁ hc₂
    rw [List.mem_append, List.mem_singleton] at h₁ h₂
    rcases h₁ with h₁ | rfl <;> rcases h₂ with h₂ | rfl
    · exact hP s₁ h₁ s₂ h₂ hd₁ hd₂ hc₁ hc₂
    · exact hold s₁ h₁ hd₁ hc₁
    · exact (hold s₂ h₂ hd₂ hc₂).symm
    · rfl

/-- Any number of calls on any instances, interleaved in any way: an event takes effect in one of
its deliveries at most, just if no delivery of it finds a state that its payload changes after
another one did. -/
theorem event_once_iff (calls : τ → Call) (w₀ : World) (eventId : String)
    {h : List (Taken τ World)} {c : Config τ World WorkflowError Reply}
    (hrun : (started calls w₀).Run h c) :
    EventOnce calls eventId h ↔ ∀ h₁ s, h₁ ++ [s] <+: h → AppliesAlone calls eventId h₁ s := by
  have hiff := Follows.iff_good (T := fun i => (calls i).hookMove) (F := fun _ _ _ => True)
    (p := fun i => (calls i).hookStart) (I := HookInv calls eventId)
    (P := fun h _ => EventOnce calls eventId h) (G := AppliesAlone calls eventId)
    (fun i => (calls i).hooks) ⟨fun t => ?_, fun t env self payload hc => ?_,
      fun h₁ s hp => by simpa using hp.length_le⟩
    (fun h φ w i w' p hI hT => hI.step hT) (fun s hs => by simp at hs) ?_ hrun
  · rw [← hiff]
    constructor
    · intro hP h₁ c₁ hp _ s₁ hs₁ s₂ hs₂
      exact hP s₁ (hp.subset hs₁) s₂ (hp.subset hs₂)
    · exact fun hP => hP h c List.prefix_rfl hrun
  · rcases hc : calls t <;> simp [Call.hookStart, HookPhase.Fits]
  · intro rid hphase
    simp [hc, Call.hookStart] at hphase
  · intro h φ w i w' p hI hP hT
    by_cases hd : Delivers calls eventId i
    · have htouch := hookMove_touches hI hT hd
      by_cases hs : Untouched w w'
      · exact ⟨fun _ happ => absurd hs (htouch.2 happ), fun _ => hP.idle fun _ => hs⟩
      · rw [hP.snoc_iff hd hs]
        constructor
        · intro hold _ h₁ s₁ hp happ
          have hd₁ : Delivers calls eventId s₁.thread := by
            obtain ⟨env, self, payload, hc, hev, -⟩ := happ
            exact ⟨env, self, payload, hc, hev⟩
          exact hold s₁ (mem_iff_step.2 ⟨h₁, hp⟩) hd₁ ((hI.touched h₁ s₁ hp hd₁).2 happ)
        · intro hgood s₁ hs₁ hd₁ hc₁
          obtain ⟨h₁, hp⟩ := mem_iff_step.1 hs₁
          exact hgood (htouch.1 hs) h₁ s₁ hp ((hI.touched h₁ s₁ hp hd₁).1 hc₁)
    · refine ⟨fun _ happ => ?_, fun _ => hP.idle fun h => absurd h hd⟩
      obtain ⟨env, self, payload, hc, hev, -⟩ := happ
      exact absurd ⟨env, self, payload, hc, hev⟩ hd

end Runs

/-- A callback that reports the payment declined. -/
def declinedAt (now : Time) (self : ℕ) (eventId orderId : String) : Call :=
  .handlePaymentWebhook ⟨now, now, now, now⟩ self ⟨eventId, orderId, "t1", .declined⟩

/-- A checkout, a decline, the buyer's next try, and the decline again, at another instance. -/
def redeliveredCalls : Fin 4 → Call
  | 0 => checkoutAt 1000 orderA
  | 1 => declinedAt 2000 0 "e1" "a"
  | 2 => payAt 3000 "a" "k1" ⟨.success, some "t2", none⟩
  | 3 => declinedAt 4000 1 "e1" "a"

theorem redelivered_isSome : ((started redeliveredCalls heldWorld).history
    [0, 0, 0, 1, 1, 1, 1, 2, 2, 2, 3, 3, 3]).isSome := by decide

/-- Both deliveries change the order. -/
theorem redelivered_changes : ∃ h c, (started redeliveredCalls heldWorld).Run h c
    ∧ ∃ s ∈ h, ∃ s' ∈ h, s.thread = 1 ∧ s'.thread = 3 ∧ ¬ Untouched s.before s.after
      ∧ ¬ Untouched s'.before s'.after := by
  have hchanged : ∀ {w w' : World}, (w.orders.get "a").map (·.status) = some .paymentPending →
      (w'.orders.get "a").map (·.status) = some .paymentDeclined → ¬ Untouched w w' := by
    rintro w w' hp hd ⟨ho, -⟩
    rw [ho, hp] at hd
    simp at hd
  exact ⟨_, _, Config.run_of_history _ (Option.eq_some_of_isSome redelivered_isSome),
    _, List.getElem_mem (n := 5) (by decide), _, List.getElem_mem (n := 12) (by decide), rfl, rfl,
    hchanged rfl rfl, hchanged rfl rfl⟩

theorem redelivered_delivers (t : Fin 4) (ht : t = 1 ∨ t = 3) :
    Delivers redeliveredCalls "e1" t := by
  rcases ht with rfl | rfl <;> exact ⟨_, _, _, rfl, rfl⟩

/-- The stale decline takes the order back to PAYMENT_DECLINED while the next charge is on its
way. -/
theorem event_once_fails : ∃ h c, (started redeliveredCalls heldWorld).Run h c
    ∧ ¬ EventOnce redeliveredCalls "e1" h := by
  obtain ⟨h, c, hrun, s, hs, s', hs', ht, ht', hc, hc'⟩ := redelivered_changes
  refine ⟨h, c, hrun, fun hP => ?_⟩
  have heq := hP s hs s' hs' (redelivered_delivers _ (.inl ht))
    (redelivered_delivers _ (.inr ht')) hc hc'
  rw [ht, ht'] at heq
  exact absurd heq (by decide)

theorem event_once_iff_redelivered : ∃ h c, (started redeliveredCalls heldWorld).Run h c
    ∧ ∃ h₁ s, h₁ ++ [s] <+: h ∧ ¬ AppliesAlone redeliveredCalls "e1" h₁ s := by
  obtain ⟨h, c, hrun, s, hs, s', hs', ht, ht', hc, hc'⟩ := redelivered_changes
  refine ⟨h, c, hrun, ?_⟩
  by_contra hno
  push Not at hno
  have heq := (event_once_iff redeliveredCalls heldWorld "e1" hrun).2 hno s hs s' hs'
    (redelivered_delivers _ (.inl ht)) (redelivered_delivers _ (.inr ht')) hc hc'
  rw [ht, ht'] at heq
  exact absurd heq (by decide)

end LaunchPad
