import LaunchPad.Proofs.ConfirmedSeat
import LaunchPad.Proofs.Repertoire
import LaunchPad.Lib.Protocol

/-!
# One charge for a key

A payment looks its order up, looks the hold up, checks what the order records under its key, and
sends the charge in the segment of that check; what comes back is recorded in the next. So two
payments with one key both charge where the second checks while the first one's charge is on the
way. The check looks at the first attempt under the key only: one that succeeded behind one that
did not is not seen. There is no other way to charge twice (`charges_once_iff`).
-/

namespace LaunchPad

open Interleave Rows Relation

section Spec

variable {τ : Type} [DecidableEq τ]

/-- In this step a charge is sent for the order, under the key. -/
def ChargesIn (oid key : String) (s : Taken τ World) : Prop :=
  ∃ q : ChargeRequest, s.after.log = s.before.log ++ [.chargeRequested q] ∧ q.orderId = oid
    ∧ q.idempotencyKey = key

/-- In this step the gateway's answer comes in, and it is SUCCESS. -/
def PaidIn (oid key : String) (s : Taken τ World) : Prop :=
  ∃ (q : ChargeRequest) (res : ChargeResult) (rest : List PortEvent),
    s.after.log = s.before.log ++ .chargeAnswered q res :: rest ∧ q.orderId = oid
      ∧ q.idempotencyKey = key ∧ res.status = .success

/-- The call waits for the gateway's answer: its last step was to send the charge. -/
def InFlight (oid key : String) (h : List (Taken τ World)) (t : τ) : Prop :=
  ∃ s, (stepsOf t h).getLast? = some s ∧ ChargesIn oid key s

/-- The call's charge is on the way, or has come back with SUCCESS. -/
def LiveCharge (oid key : String) (h : List (Taken τ World)) (t : τ) : Prop :=
  InFlight oid key h t ∨ ∃ s ∈ stepsOf t h, PaidIn oid key s

def World.attempts (w : World) (oid : String) : List PaymentAttempt :=
  ((w.orders.get oid).map (·.paymentAttempts)).getD []

/-- The attempts under the key that succeeded. -/
def World.paidAttempts (w : World) (oid key : String) : List PaymentAttempt :=
  (w.attempts oid).filter fun a => a.idempotencyKey = key ∧ a.status = .success

/-- One charge at most is on the way or has succeeded, and one at most is recorded to have
succeeded. A call sends one at most. -/
structure ChargesOnce (oid key : String) (h : List (Taken τ World)) (w : World) : Prop where
  call : ∀ t, (stepsOf t h).Pairwise fun s s' => ChargesIn oid key s → ¬ ChargesIn oid key s'
  live : ∀ t t', LiveCharge oid key h t → LiveCharge oid key h t' → t = t'
  recorded : (w.paidAttempts oid key).length ≤ 1

/-- Where the call is a payment of the order under the key that comes to its check, which is its
third step, and goes on to charge: no charge for them is on the way, and none is recorded to have
succeeded. -/
def ChecksAlone (calls : τ → Call) (oid key : String) (h : List (Taken τ World))
    (s : Taken τ World) : Prop :=
  ∀ env command, calls s.thread = .processPayment env command → command.orderId = oid →
    command.idempotencyKey = key → (stepsOf s.thread h).length = 2 →
    ∀ o, s.before.orders.get oid = some o → o.paidAttempt key = none → o.status ≠ .confirmed →
      (∀ t, ¬ InFlight oid key h t) ∧ s.before.paidAttempts oid key = []

end Spec

/-! ## Segments that do not charge -/

def PortEvent.OfCharge : PortEvent → Prop
  | .chargeRequested _ => True
  | .chargeAnswered _ _ => True
  | _ => False

/-- No charge is sent or answered, and none is recorded. -/
structure NoCharge (w w' : World) : Prop where
  log : ∃ l, w'.log = w.log ++ l ∧ ∀ e ∈ l, ¬ e.OfCharge
  attempts : ∀ oid, w'.attempts oid = w.attempts oid

theorem noCharge_refl (w : World) : NoCharge w w := ⟨⟨[], by simp⟩, fun _ => rfl⟩

theorem noCharge_trans {w₁ w₂ w₃ : World} (h : NoCharge w₁ w₂) (h' : NoCharge w₂ w₃) :
    NoCharge w₁ w₃ := by
  obtain ⟨l, hl, hn⟩ := h.log
  obtain ⟨l', hl', hn'⟩ := h'.log
  refine ⟨⟨l ++ l', by rw [hl', hl, List.append_assoc], fun e he => ?_⟩,
    fun oid => (h'.attempts oid).trans (h.attempts oid)⟩
  rcases List.mem_append.1 he with he | he
  · exact hn e he
  · exact hn' e he

theorem World.attempts_saveOrder (w : World) (o : Order) (oid : String) :
    (w.saveOrder o).attempts oid = if oid = o.id then o.paymentAttempts else w.attempts oid := by
  have hget : (w.saveOrder o).orders.get oid = if oid = o.id then some o else w.orders.get oid :=
    Repository.get_save _ o oid
  unfold attempts
  rw [hget]
  split_ifs <;> rfl

theorem World.attempts_of_get {w : World} {oid : String} {o : Order}
    (ho : w.orders.get oid = some o) : w.attempts oid = o.paymentAttempts := by
  simp [attempts, ho]

theorem noCharge_saveOrder {w : World} {o : Order} (h : w.attempts o.id = o.paymentAttempts) :
    NoCharge w (w.saveOrder o) := by
  refine ⟨⟨[], by simp [World.saveOrder]⟩, fun oid => ?_⟩
  rw [World.attempts_saveOrder]
  split_ifs with hid
  · rw [hid, h]
  · rfl

theorem Repertoire.Op.noCharge {may : Repertoire} (hc : ¬ may.charges) {w w' : World}
    (h : may.Op w w') : NoCharge w w' := by
  cases h with
  | order hm ho h =>
    obtain ⟨hid, -, hat⟩ := OrderMethod.frame h
    refine noCharge_saveOrder ?_
    rw [hid, hat, World.attempts_of_get ho]
    rintro a rfl
    exact hc hm
  | saveOrder ho => exact noCharge_saveOrder (World.attempts_of_get ho)
  | newOrder hfresh =>
    exact noCharge_saveOrder (by simp [World.attempts, Order.ofReservation, hfresh])
  | reservation hm hr h => exact ⟨⟨[], by simp [World.saveReservation]⟩, fun _ => rfl⟩
  | saveReservation hr => exact ⟨⟨[], by simp [World.saveReservation]⟩, fun _ => rfl⟩
  | @record e he =>
    refine ⟨⟨[e], rfl, ?_⟩, fun _ => rfl⟩
    rintro e' he'
    obtain rfl := List.mem_singleton.1 he'
    cases e' <;> simp_all [PortEvent.OfCharge, event]
  | addEvent => exact ⟨⟨[], by simp [World.addEvent]⟩, fun _ => rfl⟩

theorem noCharge_of_uses {may : Repertoire} (hc : ¬ may.charges) {β : Type}
    {act : World → Option (β × World)} (h : Uses may β act) {w w' : World} {b : β}
    (hact : act w = some (b, w')) : NoCharge w w' := by
  have hops := h w b w' hact
  clear hact
  induction hops with
  | refl => exact noCharge_refl w
  | tail _ hop ih => exact noCharge_trans ih (hop.noCharge hc)

/-! ## A payment's phases -/

inductive PayPhase
  | start
  | found
  | check
  | inFlight (request : ChargeRequest)
  | settling
  | ended
  /-- The call is not a payment. -/
  | other

/-- The segments of a payment. -/
inductive PayMove (command : ProcessPaymentCommand) : PayPhase → World → World → PayPhase → Prop
  | orderFound {w : World} : PayMove command .start w w .found
  | noOrder {w : World} : PayMove command .start w w .ended
  | holdFound {w : World} : PayMove command .found w w .check
  | noHold {w : World} : PayMove command .found w w .ended
  /-- The order has been paid. -/
  | answered {w : World} {o : Order} (ho : w.orders.get command.orderId = some o)
      (hpaid : o.paidAttempt command.idempotencyKey ≠ none ∨ o.status = .confirmed) :
      PayMove command .check w w .ended
  | charged {w w' : World} {q : ChargeRequest} (hid : q.orderId = command.orderId)
      (hkey : q.idempotencyKey = command.idempotencyKey)
      (hlog : w'.log = w.log ++ [.chargeRequested q])
      (hattempts : ∀ oid, w'.attempts oid = w.attempts oid) (o : Order)
      (ho : w.orders.get command.orderId = some o)
      (hfree : o.paidAttempt command.idempotencyKey = none) (hopen : o.status ≠ .confirmed) :
      PayMove command .check w w' (.inFlight q)
  | threw {w : World} {q : ChargeRequest} : PayMove command (.inFlight q) w w .ended
  | returned {w w' : World} {q : ChargeRequest} {res : ChargeResult} {rest : List PortEvent}
      {a : PaymentAttempt} (hlog : w'.log = w.log ++ .chargeAnswered q res :: rest)
      (hrest : ∀ e ∈ rest, ¬ e.OfCharge) (hkey : a.idempotencyKey = q.idempotencyKey)
      (hstatus : a.status = .success ↔ res.status = .success)
      (hattempts : ∀ oid, w'.attempts oid = if oid = q.orderId then w.attempts oid ++ [a]
        else w.attempts oid) : PayMove command (.inFlight q) w w' .settling
  | settles {w w' : World} (h : NoCharge w w') : PayMove command .settling w w' .settling

/-- The segments of any call, as far as charges go. -/
def Call.payMove : Call → PayPhase → World → World → PayPhase → Prop
  | .processPayment _ command => PayMove command
  | _ => fun s w w' s' => s = .other ∧ s' = .other ∧ NoCharge w w'

def Call.payStart : Call → PayPhase
  | .processPayment _ _ => .start
  | _ => .other

section Payment

variable {command : ProcessPaymentCommand} {α β : Type}

/-- The call may end in any phase. -/
abbrev Pays {α : Type} (command : ProcessPaymentCommand) (p : Flow α) (s : PayPhase) : Prop :=
  Follows (PayMove command) (fun _ _ => True) p s

theorem pays_find {f : World → Option β} {text id : String} {k : β → Flow α} {s s' : PayPhase}
    (hfound : ∀ w, PayMove command s w w s') (hnone : ∀ w, PayMove command s w w .ended)
    (hk : ∀ b, Pays command (k b) s') :
    Pays command (do
      let found ← Async.await (Sync.read f)
      let b ← orNotFound text id found
      k b) s := by
  refine Follows.await_bind (K := fun r s₁ => ∀ b, r = .ok (some b) → s₁ = s') ?_ ?_
    fun _ _ _ => trivial
  · intro w r w' h
    simp only [Sync.read_apply, Option.some.injEq, Prod.mk.injEq] at h
    obtain ⟨rfl, rfl⟩ := h
    rcases hf : f w with _ | b
    · exact ⟨.ended, hnone w, by simp⟩
    · exact ⟨s', hfound w, fun _ _ => rfl⟩
  · rintro (_ | b) s₁ hs₁
    · exact Follows.throw trivial
    · rw [hs₁ b rfl]
      exact hk b

/-- What follows the charge's answer. -/
theorem pays_settling {may : Repertoire} (hc : ¬ may.charges) {p : Flow α}
    (h : p.Each (Uses may)) : Pays command p .settling :=
  Follows.of_each h (fun _ _ huses _ _ _ hact => .settles (noCharge_of_uses hc huses hact))
    fun _ => trivial

/-- The segment in which the answer is recorded. -/
theorem charge_returned {may : Repertoire} (hc : ¬ may.charges) {env : PaymentEnv} {n : ℕ}
    {q : ChargeRequest} {result : ChargeResult} {st : PaymentStatus} {t reason : Option String}
    (hst : st = .success ↔ result.status = .success) {tail : Segment α}
    (htail : Uses may _ tail) {w w' : World} {r : Except WorkflowError α}
    (h : (recordCharge env n q result st t reason >>= fun _ => tail) w = some (r, w')) :
    PayMove command (.inFlight q) w w' .settling := by
  have hrec : ∀ r₁ w₁, recordCharge env n q result st t reason w = some (r₁, w₁) →
      ∃ o, w.orders.get q.orderId = some o ∧ r₁ = .ok ()
        ∧ w₁ = (w.record (.chargeAnswered q result)).saveOrder (o.recordPaymentAttempt
          ⟨n, q.idempotencyKey, st, t, reason, env.attemptAt⟩) := by
    intro r₁ w₁ h₁
    simp only [recordCharge, record, Sync.bind_apply, Sync.modify_apply] at h₁
    obtain ⟨o, ho, -, ⟨e, he, -⟩ | ⟨o', ho', rfl, rfl⟩⟩ := mutateOrder_eq_some h₁
    · cases he
    · obtain rfl := Except.ok.inj ho'
      exact ⟨o, ho, rfl, rfl⟩
  rcases Sync.bind_eq_some.1 h with ⟨_, w₁, h₁, h₂⟩ | ⟨e, h₁, -⟩
  · obtain ⟨o, ho, -, rfl⟩ := hrec _ _ h₁
    have hid : o.id = q.orderId := w.orders.get_key ho
    have hquiet := noCharge_of_uses hc htail h₂
    obtain ⟨l, hl, hn⟩ := hquiet.log
    refine .returned (a := ⟨n, q.idempotencyKey, st, t, reason, env.attemptAt⟩) ?_ hn rfl hst
      fun oid => ?_
    · rw [hl]
      exact List.append_assoc _ _ _
    · rw [hquiet.attempts oid, World.attempts_saveOrder]
      change (if oid = o.id then _ else w.attempts oid) = _
      rw [hid]
      split_ifs with h
      · rw [h, World.attempts_of_get ho]
        rfl
      · rfl
  · obtain ⟨o, -, hr, -⟩ := hrec _ _ h₁
    cases hr

theorem pays_charged (env : PaymentEnv) (n : ℕ) (q : ChargeRequest) (result : ChargeResult)
    {st : PaymentStatus} {t reason : Option String} (hst : st = .success ↔ result.status = .success)
    {may : Repertoire} (hc : ¬ may.charges) {tail : Segment β} (htail : Uses may _ tail)
    {k : β → Flow α} (hk : ∀ b, (k b).Each (Uses may)) :
    Pays command (Async.await (recordCharge env n q result st t reason >>= fun _ => tail) >>= k)
      (.inFlight q) := by
  refine Follows.await_bind (K := fun _ s => s = .settling)
    (fun w r w' h => ⟨.settling, charge_returned hc hst htail h, rfl⟩) ?_ fun _ _ _ => trivial
  rintro b _ rfl
  exact pays_settling hc (hk b)

/-- An answer from what the order records, or a charge. -/
theorem startCharge_eq_some {env : PaymentEnv} {w w' : World}
    {r : Except WorkflowError (ProcessPaymentResult ⊕ ℕ × ChargeRequest)}
    (h : startCharge env command w = some (r, w')) :
    ∃ o, w.orders.get command.orderId = some o
      ∧ ((∃ answer, r = .ok (.inl answer)) ∧ w' = w
          ∧ (o.paidAttempt command.idempotencyKey ≠ none ∨ o.status = .confirmed)
        ∨ ∃ w₁ q, (w₁ = w ∨ w₁ = w.saveOrder { o with status := .paymentPending })
          ∧ q.orderId = o.id ∧ q.idempotencyKey = command.idempotencyKey
          ∧ r = .ok (.inr (o.paymentAttempts.length + 1, q))
          ∧ w' = w₁.record (.chargeRequested q)
          ∧ o.paidAttempt command.idempotencyKey = none ∧ o.status ≠ .confirmed) := by
  rcases ho : w.orders.get command.orderId with _ | o
  · simp [startCharge, Sync.bind_apply, derefOrder, ho] at h
  refine ⟨o, rfl, ?_⟩
  simp only [startCharge, Sync.bind_apply, derefOrder, ho, Option.map_some] at h
  rcases hp : o.paidAttempt command.idempotencyKey with _ | attempt <;> rw [hp] at h
  · split_ifs at h with hs hd
    · simp only [Sync.pure_apply, Option.some.injEq, Prod.mk.injEq] at h
      obtain ⟨rfl, rfl⟩ := h
      exact .inl ⟨⟨_, rfl⟩, rfl, .inr hs⟩
    · -- a declined order is put back first
      have hretry : mutateOrder command.orderId (·.retryPayment) w
          = some (.ok (), w.saveOrder { o with status := .paymentPending }) := by
        simp [mutateOrder, Sync.bind_apply, derefOrder, ho, Order.retryPayment, hd]
      simp only [Sync.bind_apply, hretry, record, Sync.modify_apply, Sync.pure_apply,
        Option.some.injEq, Prod.mk.injEq] at h
      obtain ⟨rfl, rfl⟩ := h
      exact .inr ⟨_, _, .inr rfl, rfl, rfl, rfl, rfl, rfl, hs⟩
    · simp only [Sync.bind_apply, record, Sync.modify_apply, Sync.pure_apply, Option.some.injEq,
        Prod.mk.injEq] at h
      obtain ⟨rfl, rfl⟩ := h
      exact .inr ⟨_, _, .inl rfl, rfl, rfl, rfl, rfl, rfl, hs⟩
  · simp only [Sync.pure_apply, Option.some.injEq, Prod.mk.injEq] at h
    obtain ⟨rfl, rfl⟩ := h
    exact .inl ⟨⟨_, rfl⟩, rfl, .inl (by simp)⟩

theorem startCharge_moves (env : PaymentEnv) {w w' : World}
    {r : Except WorkflowError (ProcessPaymentResult ⊕ ℕ × ChargeRequest)}
    (h : startCharge env command w = some (r, w')) :
    (∃ answer, r = .ok (.inl answer) ∧ PayMove command .check w w' .ended)
      ∨ ∃ n q, r = .ok (.inr (n, q)) ∧ PayMove command .check w w' (.inFlight q) := by
  obtain ⟨o, ho, ⟨⟨answer, rfl⟩, rfl, hpaid⟩ | ⟨w₁, q, hw₁, hid, hkey, rfl, rfl, hp, hs⟩⟩ :=
    startCharge_eq_some h
  · exact .inl ⟨answer, rfl, .answered ho hpaid⟩
  · have hoid : o.id = command.orderId := w.orders.get_key ho
    have hat : w.attempts o.id = o.paymentAttempts := by rw [hoid, World.attempts_of_get ho]
    have hsame : w₁.log = w.log ∧ ∀ oid, w₁.attempts oid = w.attempts oid := by
      rcases hw₁ with rfl | rfl
      · exact ⟨rfl, fun _ => rfl⟩
      · exact ⟨rfl, (noCharge_saveOrder (o := { o with status := .paymentPending }) hat).attempts⟩
    refine .inr ⟨_, q, rfl, .charged (hid.trans hoid) hkey ?_ hsame.2 o ho hp hs⟩
    rw [World.record, hsame.1]

theorem pays_declineCharge (env : PaymentEnv) (rid : String) (n : ℕ) (q : ChargeRequest)
    (result : ChargeResult) {st : PaymentStatus} (reason msg : String)
    (hst : st = .success ↔ result.status = .success) :
    Pays command (declineCharge env rid n q result st reason msg) (.inFlight q) := by
  have hc : ¬ (Repertoire.mk False none none).charges := id
  refine pays_charged env n q result hst hc
    (uses_declineOrder _ rid env.checkAt (uses_orderRepoSave _)) fun reverted => ?_
  split_ifs
  · exact Async.each_bind (Async.each_await (uses_orderRepoSave _)) fun _ => Async.each_pure _
  · exact Async.each_pure _

theorem pays_processPayment (env : PaymentEnv) :
    Pays command (processPayment env command) .start := by
  refine pays_find (fun _ => .orderFound) (fun _ => .noOrder) fun o => ?_
  refine pays_find (fun _ => .holdFound) (fun _ => .noHold) fun r => ?_
  refine Follows.await_bind (K := fun r s => ∀ n q, r = .ok (.inr (n, q)) → s = .inFlight q) ?_ ?_
    fun _ _ _ => trivial
  · intro w r w' h
    rcases startCharge_moves env h with ⟨answer, rfl, hm⟩ | ⟨n, q, rfl, hm⟩
    · exact ⟨_, hm, by simp⟩
    · refine ⟨_, hm, fun n' q' he => ?_⟩
      simp only [Except.ok.injEq, Sum.inr.injEq, Prod.mk.injEq] at he
      rw [he.2]
  rintro (answer | ⟨n, q⟩) s hs
  · exact Follows.pure trivial
  rw [hs n q rfl]
  rcases env.charge with e | result
  · refine Follows.await fun w r w' h => ⟨.ended, ?_, trivial⟩
    simp only [Sync.throw_apply, Option.some.injEq, Prod.mk.injEq] at h
    exact h.2 ▸ .threw
  have hc : ¬ (Repertoire.mk False (some env.checkAt) none).charges := id
  rcases result with ⟨_ | _ | _ | _, t, m⟩
  · exact pays_charged env n q _ (by simp) hc
      (uses_record (e := .ticketRequested q.orderId) trivial) fun _ =>
      each_fulfilled env r.id q _ rfl
  · exact pays_declineCharge env r.id n q _ _ _ (by simp)
  · exact pays_charged env n q _ (by simp) hc (uses_orderRepoSave _) fun _ => Async.each_pure _
  · exact pays_declineCharge env r.id n q _ _ _ (by simp)

end Payment

theorem Call.pays (c : Call) : Follows c.payMove (fun _ _ => True) c.program c.payStart := by
  have hother : ∀ {may : Repertoire}, ¬ may.charges → c.program.Each (Uses may) →
      Follows (fun s w w' s' => s = .other ∧ s' = .other ∧ NoCharge w w')
        (fun _ _ => True) c.program
        PayPhase.other := fun hc h => Follows.of_each h
    (fun _ _ huses _ _ _ hact => ⟨rfl, rfl, noCharge_of_uses hc huses hact⟩) fun _ => trivial
  cases c with
  | processPayment env command =>
    exact Follows.bind (pays_processPayment env) (fun _ _ _ => Follows.pure trivial)
      fun _ _ _ => trivial
  | initiateCheckout env command => exact hother id (each_call _)
  | handlePaymentWebhook env self payload => exact hother id (each_call _)
  | compensateOrder env oid x reason => exact hother id (each_call _)
  | retryCompensation env oid => exact hother id (each_call _)
  | expire now later rid => exact hother id (each_call _)

/-! ## Runs -/

section Runs

variable {τ : Type} [DecidableEq τ] {oid key : String} {h : List (Taken τ World)}
  {s : Taken τ World} {w : World}

/-- Nothing happens to charges for the order under the key. -/
def Silent (oid key : String) (s : Taken τ World) : Prop :=
  ¬ ChargesIn oid key s ∧ ¬ PaidIn oid key s

omit [DecidableEq τ] in
theorem silent_of_noCharge (hq : NoCharge s.before s.after) : Silent oid key s := by
  obtain ⟨l, hl, hn⟩ := hq.log
  constructor
  · rintro ⟨q, hlog, -⟩
    rw [hl, List.append_cancel_left_eq] at hlog
    exact hn (.chargeRequested q) (by simp [hlog]) trivial
  · rintro ⟨q, res, rest, hlog, -⟩
    rw [hl, List.append_cancel_left_eq] at hlog
    exact hn (.chargeAnswered q res) (by simp [hlog]) trivial

/-- What the phase of a call says of the steps it has taken. -/
def PayPhase.Fits (oid key : String) (steps : List (Taken τ World)) : PayPhase → Prop
  | .start => steps.length = 0
  | .found => steps.length = 1 ∧ ∀ s ∈ steps, Silent oid key s
  | .check => steps.length = 2 ∧ ∀ s ∈ steps, Silent oid key s
  | .inFlight q => steps.length = 3 ∧ (∀ s ∈ steps, ¬ PaidIn oid key s)
      ∧ (q.orderId = oid → q.idempotencyKey = key →
        ∃ s, steps.getLast? = some s ∧ ChargesIn oid key s)
  | .settling => 4 ≤ steps.length
  | .ended => True
  | .other => True

/-- The phases fit, and the order's record of what succeeded is true. -/
structure ChargeInv (oid key : String) (h : List (Taken τ World)) (φ : τ → PayPhase) (w : World) :
    Prop where
  fits : ∀ t, (φ t).Fits oid key (stepsOf t h)
  paid : (∃ s ∈ h, PaidIn oid key s) ↔ w.paidAttempts oid key ≠ []

theorem LiveCharge.of_ne {t : τ} (ht : s.thread ≠ t) :
    LiveCharge oid key (h ++ [s]) t ↔ LiveCharge oid key h t := by
  unfold LiveCharge InFlight
  rw [stepsOf_snoc_of_ne ht]

theorem LiveCharge.of_silent {t : τ} (hs : Silent oid key s)
    (hlive : LiveCharge oid key (h ++ [s]) t) : LiveCharge oid key h t := by
  rcases eq_or_ne s.thread t with rfl | ht
  · unfold LiveCharge InFlight at hlive
    rw [stepsOf_snoc_self] at hlive
    rcases hlive with ⟨s', hlast, hc⟩ | ⟨s', hmem, hp⟩
    · simp only [List.getLast?_append, List.getLast?_singleton, Option.some_or,
        Option.some.injEq] at hlast
      exact absurd (hlast ▸ hc) hs.1
    · rcases List.mem_append.1 hmem with hmem | hmem
      · exact .inr ⟨s', hmem, hp⟩
      · exact absurd (List.mem_singleton.1 hmem ▸ hp) hs.2
  · exact (LiveCharge.of_ne ht).1 hlive

/-- A call that has charged does not charge again. -/
theorem calls_snoc {i : τ} {w' : World}
    (hcall : ∀ t, (stepsOf t h).Pairwise fun s s' => ChargesIn oid key s → ¬ ChargesIn oid key s')
    (hnew : ∀ s ∈ stepsOf i h, ChargesIn oid key s →
      ¬ ChargesIn oid key (⟨i, w, w'⟩ : Taken τ World))
    (t : τ) : (stepsOf t (h ++ [⟨i, w, w'⟩])).Pairwise
      fun s s' => ChargesIn oid key s → ¬ ChargesIn oid key s' := by
  rcases eq_or_ne i t with rfl | ht
  · have hself : stepsOf i (h ++ [⟨i, w, w'⟩]) = stepsOf i h ++ [⟨i, w, w'⟩] :=
      stepsOf_snoc_self (s := ⟨i, w, w'⟩)
    rw [hself, List.pairwise_append]
    refine ⟨hcall i, List.pairwise_singleton _ _, fun s hs s' hs' => ?_⟩
    rw [List.mem_singleton.1 hs']
    exact hnew s hs
  · rw [stepsOf_snoc_of_ne ht]
    exact hcall t

/-- A silent step keeps all there is to keep. -/
theorem ChargesOnce.silent (hP : ChargesOnce oid key h w) {i : τ} {w' : World}
    (hs : Silent oid key (⟨i, w, w'⟩ : Taken τ World))
    (hpaid : w'.paidAttempts oid key = w.paidAttempts oid key) :
    ChargesOnce oid key (h ++ [⟨i, w, w'⟩]) w' where
  call := calls_snoc hP.call fun _ _ _ => hs.1
  live t t' ht ht' := hP.live t t' (ht.of_silent hs) (ht'.of_silent hs)
  recorded := by
    rw [hpaid]
    exact hP.recorded

theorem World.paidAttempts_congr {w w' : World} (h : w'.attempts oid = w.attempts oid) :
    w'.paidAttempts oid key = w.paidAttempts oid key := by
  unfold paidAttempts
  rw [h]

/-- The phases after a step of one call. -/
theorem fits_snoc {φ : τ → PayPhase} (hfits : ∀ t, (φ t).Fits oid key (stepsOf t h)) {i : τ}
    {w w' : World} {p : PayPhase} (hp : p.Fits oid key (stepsOf i h ++ [⟨i, w, w'⟩])) (t : τ) :
    (Function.update φ i p t).Fits oid key (stepsOf t (h ++ [⟨i, w, w'⟩])) := by
  rcases eq_or_ne i t with rfl | ht
  · rw [Function.update_self]
    exact (stepsOf_snoc_self (h := h) (s := ⟨i, w, w'⟩)).symm ▸ hp
  · rw [Function.update_of_ne ht.symm, stepsOf_snoc_of_ne ht]
    exact hfits t

omit [DecidableEq τ] in
theorem paid_snoc_of_silent {i : τ} {w w' : World}
    (hpaid : (∃ s ∈ h, PaidIn oid key s) ↔ w.paidAttempts oid key ≠ [])
    (hs : ¬ PaidIn oid key (⟨i, w, w'⟩ : Taken τ World))
    (hw : w'.paidAttempts oid key = w.paidAttempts oid key) :
    (∃ s ∈ h ++ [⟨i, w, w'⟩], PaidIn oid key s) ↔ w'.paidAttempts oid key ≠ [] := by
  rw [hw, ← hpaid]
  constructor
  · rintro ⟨s, hmem, hp⟩
    rcases List.mem_append.1 hmem with hmem | hmem
    · exact ⟨s, hmem, hp⟩
    · exact absurd (List.mem_singleton.1 hmem ▸ hp) hs
  · rintro ⟨s, hmem, hp⟩
    exact ⟨s, List.mem_append_left _ hmem, hp⟩

theorem World.paidAttempts_snoc {w w' : World} {a : PaymentAttempt}
    (hat : w'.attempts oid = w.attempts oid ++ [a]) :
    w'.paidAttempts oid key = if a.idempotencyKey = key ∧ a.status = .success
      then w.paidAttempts oid key ++ [a] else w.paidAttempts oid key := by
  unfold paidAttempts
  rw [hat, List.filter_append]
  split_ifs with h <;> simp [h]

omit [DecidableEq τ] in
/-- A charge that is sent is none that succeeded. -/
theorem not_paidIn_of_charged {q : ChargeRequest}
    (hlog : s.after.log = s.before.log ++ [.chargeRequested q]) : ¬ PaidIn oid key s := by
  rintro ⟨q', res, rest, hlog', -⟩
  rw [hlog, List.append_cancel_left_eq] at hlog'
  simp at hlog'

omit [DecidableEq τ] in
theorem chargesIn_of_charged {q : ChargeRequest}
    (hlog : s.after.log = s.before.log ++ [.chargeRequested q]) :
    ChargesIn oid key s ↔ q.orderId = oid ∧ q.idempotencyKey = key := by
  constructor
  · rintro ⟨q', hlog', hoid, hkey⟩
    rw [hlog, List.append_cancel_left_eq] at hlog'
    simp only [List.cons.injEq, PortEvent.chargeRequested.injEq, and_true] at hlog'
    exact hlog' ▸ ⟨hoid, hkey⟩
  · exact fun hq => ⟨q, hlog, hq⟩

omit [DecidableEq τ] in
theorem not_chargesIn_of_returned {q : ChargeRequest} {res : ChargeResult} {rest : List PortEvent}
    (hlog : s.after.log = s.before.log ++ .chargeAnswered q res :: rest) :
    ¬ ChargesIn oid key s := by
  rintro ⟨q', hlog', -⟩
  rw [hlog, List.append_cancel_left_eq] at hlog'
  simp at hlog'

omit [DecidableEq τ] in
theorem paidIn_of_returned {q : ChargeRequest} {res : ChargeResult} {rest : List PortEvent}
    (hlog : s.after.log = s.before.log ++ .chargeAnswered q res :: rest) :
    PaidIn oid key s ↔ (q.orderId = oid ∧ q.idempotencyKey = key) ∧ res.status = .success := by
  constructor
  · rintro ⟨q', res', rest', hlog', hoid, hkey, hres⟩
    rw [hlog, List.append_cancel_left_eq] at hlog'
    simp only [List.cons.injEq, PortEvent.chargeAnswered.injEq] at hlog'
    obtain ⟨⟨rfl, rfl⟩, -⟩ := hlog'
    exact ⟨⟨hoid, hkey⟩, hres⟩
  · rintro ⟨⟨hoid, hkey⟩, hres⟩
    exact ⟨q, res, rest, hlog, hoid, hkey, hres⟩

/-- One case for each move of a payment. -/
theorem PayMove.fits {command : ProcessPaymentCommand} {p p' : PayPhase} {i : τ} {w w' : World}
    (hm : PayMove command p w w' p') (hfit : p.Fits oid key (stepsOf i h)) :
    p'.Fits oid key (stepsOf i h ++ [⟨i, w, w'⟩]) := by
  have hsilent : ∀ w : World, Silent oid key (⟨i, w, w⟩ : Taken τ World) :=
    fun w => silent_of_noCharge (noCharge_refl w)
  cases hm with
  | orderFound =>
    refine ⟨by rw [List.length_append, hfit]; rfl, fun s hs => ?_⟩
    rw [List.length_eq_zero_iff.1 hfit, List.nil_append, List.mem_singleton] at hs
    exact hs ▸ hsilent w
  | noOrder => trivial
  | holdFound =>
    refine ⟨by rw [List.length_append, hfit.1]; rfl, fun s hs => ?_⟩
    rcases List.mem_append.1 hs with hs | hs
    · exact hfit.2 s hs
    · exact List.mem_singleton.1 hs ▸ hsilent w
  | noHold => trivial
  | answered ho hpaid => trivial
  | @charged _ _ q hid hkey hlog hattempts o ho hfree hopen =>
    refine ⟨by rw [List.length_append, hfit.1]; rfl, fun s hs => ?_, fun hq hk => ?_⟩
    · rcases List.mem_append.1 hs with hs | hs
      · exact (hfit.2 s hs).2
      · rw [List.mem_singleton.1 hs]
        exact not_paidIn_of_charged hlog
    · refine ⟨⟨i, w, w'⟩, by simp, ?_⟩
      exact (chargesIn_of_charged (s := ⟨i, w, w'⟩) hlog).2 ⟨hq, hk⟩
  | threw => trivial
  | returned hlog hrest hkey hstatus hattempts =>
    change 4 ≤ (stepsOf i h ++ [_]).length
    rw [List.length_append, hfit.1]
    simp
  | settles hq =>
    have hlen : 4 ≤ (stepsOf i h).length := hfit
    change 4 ≤ (stepsOf i h ++ [_]).length
    rw [List.length_append]
    omega

section Cases

variable (oid key) (c : Call) (h : List (Taken τ World)) (i : τ) (w w' : World)

/-- The step is nothing to the charges of the order under the key; where it is a check, it says that
the order is paid. -/
structure LeavesCharges : Prop where
  silent : Silent oid key (⟨i, w, w'⟩ : Taken τ World)
  paid : w'.paidAttempts oid key = w.paidAttempts oid key
  checked : ∀ env command, c = .processPayment env command → command.orderId = oid →
    command.idempotencyKey = key → (stepsOf i h).length = 2 →
    ∃ o, w.orders.get oid = some o ∧ (o.paidAttempt key ≠ none ∨ o.status = .confirmed)

/-- The step is a check that sends a charge. -/
structure SendsCharge : Prop where
  payment : ∃ env command, c = .processPayment env command ∧ command.orderId = oid
    ∧ command.idempotencyKey = key
  third : (stepsOf i h).length = 2
  silent : ∀ s ∈ stepsOf i h, Silent oid key s
  charges : ChargesIn oid key (⟨i, w, w'⟩ : Taken τ World)
  unpaid : ¬ PaidIn oid key (⟨i, w, w'⟩ : Taken τ World)
  paid : w'.paidAttempts oid key = w.paidAttempts oid key
  checked : ∃ o, w.orders.get oid = some o ∧ o.paidAttempt key = none ∧ o.status ≠ .confirmed

/-- The charge comes back with SUCCESS. -/
structure ChargeSucceeds : Prop where
  fourth : (stepsOf i h).length = 3
  unpaid : ∀ s ∈ stepsOf i h, ¬ PaidIn oid key s
  inFlight : InFlight oid key h i
  silent : ¬ ChargesIn oid key (⟨i, w, w'⟩ : Taken τ World)
  paid : PaidIn oid key (⟨i, w, w'⟩ : Taken τ World)
  recorded : ∃ a, w'.paidAttempts oid key = w.paidAttempts oid key ++ [a]

end Cases

theorem LeavesCharges.of_noCharge {c : Call} {i : τ} {w w' : World} (hq : NoCharge w w')
    (hlen : (stepsOf i h).length ≠ 2) : LeavesCharges oid key c h i w w' :=
  ⟨silent_of_noCharge hq, World.paidAttempts_congr (hq.attempts oid),
    fun _ _ _ _ _ hl => absurd hl hlen⟩

/-- The check that goes on sends a charge, for this order and key or for others. -/
theorem charged_cases {env : PaymentEnv} {command : ProcessPaymentCommand} {q : ChargeRequest}
    {i : τ} {w w' : World} (hid : q.orderId = command.orderId)
    (hkey : q.idempotencyKey = command.idempotencyKey)
    (hlog : w'.log = w.log ++ [.chargeRequested q])
    (hattempts : ∀ oid, w'.attempts oid = w.attempts oid) {o : Order}
    (ho : w.orders.get command.orderId = some o)
    (hfree : o.paidAttempt command.idempotencyKey = none) (hopen : o.status ≠ .confirmed)
    (hlen : (stepsOf i h).length = 2) (hsilent : ∀ s ∈ stepsOf i h, Silent oid key s) :
    LeavesCharges oid key (.processPayment env command) h i w w'
      ∨ SendsCharge oid key (.processPayment env command) h i w w' := by
  have hpaid : w'.paidAttempts oid key = w.paidAttempts oid key :=
    World.paidAttempts_congr (hattempts oid)
  have hcharge : ChargesIn oid key (⟨i, w, w'⟩ : Taken τ World) ↔ _ := chargesIn_of_charged hlog
  have hnot : ¬ PaidIn oid key (⟨i, w, w'⟩ : Taken τ World) := not_paidIn_of_charged hlog
  by_cases hmine : command.orderId = oid ∧ command.idempotencyKey = key
  · obtain ⟨rfl, rfl⟩ := hmine
    exact .inr ⟨⟨env, command, rfl, rfl, rfl⟩, hlen, hsilent, hcharge.2 ⟨hid, hkey⟩, hnot, hpaid,
      o, ho, hfree, hopen⟩
  · refine .inl ⟨⟨fun hc => hmine ?_, hnot⟩, hpaid, ?_⟩
    · rw [← hid, ← hkey]
      exact hcharge.1 hc
    · rintro env' command' hc h1 h2 -
      obtain ⟨-, rfl⟩ := Call.processPayment.inj hc
      exact absurd ⟨h1, h2⟩ hmine

/-- A charge comes back: it is one for this order and key that succeeds, or nothing to them. -/
theorem returned_cases {c : Call} {q : ChargeRequest} {res : ChargeResult} {rest : List PortEvent}
    {a : PaymentAttempt} {i : τ} {w w' : World}
    (hlog : w'.log = w.log ++ .chargeAnswered q res :: rest)
    (hkey : a.idempotencyKey = q.idempotencyKey)
    (hstatus : a.status = .success ↔ res.status = .success)
    (hattempts : ∀ oid, w'.attempts oid
      = if oid = q.orderId then w.attempts oid ++ [a] else w.attempts oid)
    (hfit : (PayPhase.inFlight q).Fits oid key (stepsOf i h)) :
    LeavesCharges oid key c h i w w' ∨ ChargeSucceeds oid key h i w w' := by
  obtain ⟨hlen, hunpaid, hfly⟩ := hfit
  have hnot : ¬ ChargesIn oid key (⟨i, w, w'⟩ : Taken τ World) := not_chargesIn_of_returned hlog
  have hiff : PaidIn oid key (⟨i, w, w'⟩ : Taken τ World) ↔ _ := paidIn_of_returned hlog
  by_cases hmine : (q.orderId = oid ∧ q.idempotencyKey = key) ∧ res.status = .success
  · obtain ⟨⟨rfl, rfl⟩, hres⟩ := hmine
    refine .inr ⟨hlen, hunpaid, hfly rfl rfl, hnot, hiff.2 ⟨⟨rfl, rfl⟩, hres⟩, a, ?_⟩
    rw [World.paidAttempts_snoc ((hattempts q.orderId).trans (if_pos rfl)),
      if_pos ⟨hkey, hstatus.2 hres⟩]
  · refine .inl ⟨⟨hnot, fun hp => hmine (hiff.1 hp)⟩, ?_, fun _ _ _ _ _ hl => by omega⟩
    by_cases hq : oid = q.orderId
    · rw [World.paidAttempts_snoc ((hattempts oid).trans (if_pos hq)), if_neg]
      rintro ⟨hk, hs⟩
      exact hmine ⟨⟨hq.symm, hkey.symm.trans hk⟩, hstatus.1 hs⟩
    · exact World.paidAttempts_congr ((hattempts oid).trans (if_neg hq))

/-- What a step can be to the charges of the order under the key: nothing, one that is sent from
a check, or one that succeeds. -/
theorem payMove_cases {c : Call} {p p' : PayPhase} {i : τ} {w w' : World}
    (hT : c.payMove p w w' p') (hfit : p.Fits oid key (stepsOf i h)) :
    LeavesCharges oid key c h i w w' ∨ SendsCharge oid key c h i w w'
      ∨ ChargeSucceeds oid key h i w w' := by
  by_cases hpay : ∃ env command, c = .processPayment env command
  · obtain ⟨env, command, rfl⟩ := hpay
    have hm : PayMove command p w w' p' := hT
    cases hm with
    | orderFound =>
      have hlen : (stepsOf i h).length = 0 := hfit
      exact .inl (.of_noCharge (noCharge_refl w) (by omega))
    | noOrder =>
      have hlen : (stepsOf i h).length = 0 := hfit
      exact .inl (.of_noCharge (noCharge_refl w) (by omega))
    | holdFound =>
      have hlen : (stepsOf i h).length = 1 := hfit.1
      exact .inl (.of_noCharge (noCharge_refl w) (by omega))
    | noHold =>
      have hlen : (stepsOf i h).length = 1 := hfit.1
      exact .inl (.of_noCharge (noCharge_refl w) (by omega))
    | answered ho hpaid =>
      refine .inl ⟨silent_of_noCharge (noCharge_refl w), rfl, ?_⟩
      rintro env' command' hc rfl rfl -
      obtain ⟨-, rfl⟩ := Call.processPayment.inj hc
      exact ⟨_, ho, hpaid⟩
    | charged hid hkey hlog hattempts o ho hfree hopen =>
      rcases charged_cases hid hkey hlog hattempts ho hfree hopen hfit.1 hfit.2 with hl | hs
      · exact .inl hl
      · exact .inr (.inl hs)
    | threw =>
      have hlen : (stepsOf i h).length = 3 := hfit.1
      exact .inl (.of_noCharge (noCharge_refl w) (by omega))
    | returned hlog hrest hkey hstatus hattempts =>
      rcases returned_cases hlog hkey hstatus hattempts hfit with hl | hs
      · exact .inl hl
      · exact .inr (.inr hs)
    | settles hq =>
      have hlen : 4 ≤ (stepsOf i h).length := hfit
      exact .inl (.of_noCharge hq (by omega))
  · have hother : NoCharge w w' := by
      cases c with
      | processPayment env command => exact absurd ⟨env, command, rfl⟩ hpay
      | initiateCheckout env command => exact hT.2.2
      | handlePaymentWebhook env self payload => exact hT.2.2
      | compensateOrder env oid x reason => exact hT.2.2
      | retryCompensation env oid => exact hT.2.2
      | expire now later rid => exact hT.2.2
    exact .inl ⟨silent_of_noCharge hother, World.paidAttempts_congr (hother.attempts oid),
      fun env command hc => absurd ⟨env, command, hc⟩ hpay⟩

theorem ChargeInv.step {calls : τ → Call} {φ : τ → PayPhase} {i : τ} {w' : World} {p : PayPhase}
    (hI : ChargeInv oid key h φ w) (hT : (calls i).payMove (φ i) w w' p) :
    ChargeInv oid key (h ++ [⟨i, w, w'⟩]) (Function.update φ i p) w' := by
  refine ⟨fits_snoc hI.fits ?_, ?_⟩
  · have hfit := hI.fits i
    rcases hc : calls i <;> rw [hc] at hT
    case processPayment env command => exact PayMove.fits hT hfit
    all_goals
      obtain ⟨-, rfl, -⟩ := hT
      trivial
  · rcases payMove_cases hT (hI.fits i) with ⟨hs, hw, -⟩ | ⟨-, -, -, -, hs, hw, -⟩ |
      ⟨-, -, -, -, hpaid, a, hw⟩
    · exact paid_snoc_of_silent hI.paid hs.2 hw
    · exact paid_snoc_of_silent hI.paid hs hw
    · rw [hw]
      exact ⟨fun _ => by simp, fun _ => ⟨_, List.mem_append_right _
        (List.mem_singleton_self _), hpaid⟩⟩

/-- No charge is on the way and none has succeeded. -/
theorem ChargeInv.not_live_iff {φ : τ → PayPhase} (hI : ChargeInv oid key h φ w) :
    (∀ t, ¬ LiveCharge oid key h t)
      ↔ (∀ t, ¬ InFlight oid key h t) ∧ w.paidAttempts oid key = [] := by
  constructor
  · intro hno
    refine ⟨fun t ht => hno t (.inl ht), ?_⟩
    by_contra hne
    obtain ⟨s, hs, hp⟩ := hI.paid.2 hne
    exact hno s.thread (.inr ⟨s, mem_stepsOf.2 ⟨hs, rfl⟩, hp⟩)
  · rintro ⟨hfl, hnil⟩ t (hlive | ⟨s, hs, hp⟩)
    · exact hfl t hlive
    · exact hI.paid.1 ⟨s, (mem_stepsOf.1 hs).1, hp⟩ hnil

/-- The step that sends a charge keeps it the only one just if there was none. -/
theorem ChargesOnce.charge_iff {i : τ} {w' : World} (hP : ChargesOnce oid key h w)
    (hsilent : ∀ s ∈ stepsOf i h, Silent oid key s)
    (hcharge : ChargesIn oid key (⟨i, w, w'⟩ : Taken τ World))
    (hw : w'.paidAttempts oid key = w.paidAttempts oid key) :
    ChargesOnce oid key (h ++ [⟨i, w, w'⟩]) w' ↔ ∀ t, ¬ LiveCharge oid key h t := by
  have hsnoc : stepsOf i (h ++ [⟨i, w, w'⟩]) = stepsOf i h ++ [⟨i, w, w'⟩] :=
    stepsOf_snoc_self (s := ⟨i, w, w'⟩)
  constructor
  · intro hP' t hlive
    have hti : i ≠ t := by
      rintro rfl
      rcases hlive with ⟨s, hs, hc⟩ | ⟨s, hs, hp⟩
      · exact (hsilent s (List.mem_of_getLast? hs)).1 hc
      · exact (hsilent s hs).2 hp
    refine hti (hP'.live i t (.inl ⟨⟨i, w, w'⟩, ?_, hcharge⟩) ((LiveCharge.of_ne hti).2 hlive))
    rw [hsnoc]
    simp
  · intro hno
    have hi : ∀ t, LiveCharge oid key (h ++ [⟨i, w, w'⟩]) t → t = i := by
      intro t hlive
      by_contra hti
      exact hno t ((LiveCharge.of_ne (Ne.symm hti)).1 hlive)
    refine ⟨calls_snoc hP.call fun s hs hc => absurd hc (hsilent s hs).1, fun t t' ht ht' => ?_, ?_⟩
    · rw [hi t ht, hi t' ht']
    · rw [hw]
      exact hP.recorded

/-- The charge that comes back with SUCCESS was on the way, so it is the only one still. -/
theorem ChargesOnce.paid {φ : τ → PayPhase} {i : τ} {w' : World} {a : PaymentAttempt}
    (hI : ChargeInv oid key h φ w) (hP : ChargesOnce oid key h w)
    (hunpaid : ∀ s ∈ stepsOf i h, ¬ PaidIn oid key s) (hfly : InFlight oid key h i)
    (hnot : ¬ ChargesIn oid key (⟨i, w, w'⟩ : Taken τ World))
    (hw : w'.paidAttempts oid key = w.paidAttempts oid key ++ [a]) :
    ChargesOnce oid key (h ++ [⟨i, w, w'⟩]) w' := by
  have hlive : ∀ t, LiveCharge oid key (h ++ [⟨i, w, w'⟩]) t → t = i := by
    intro t ht
    by_contra hti
    exact hti (hP.live t i ((LiveCharge.of_ne (Ne.symm hti)).1 ht) (.inl hfly))
  have hnone : w.paidAttempts oid key = [] := by
    by_contra hne
    obtain ⟨s, hs, hp⟩ := hI.paid.2 hne
    have hsi : s.thread = i := hP.live _ _ (.inr ⟨s, mem_stepsOf.2 ⟨hs, rfl⟩, hp⟩) (.inl hfly)
    exact hunpaid s (mem_stepsOf.2 ⟨hs, hsi⟩) hp
  refine ⟨calls_snoc hP.call fun _ _ _ => hnot, fun t t' ht ht' => ?_, by simp [hw, hnone]⟩
  rw [hlive t ht, hlive t' ht']

/-- Any number of calls, interleaved in any way: all along the run at most one charge for an order
under a key is on the way or has succeeded, just if every payment of the order under the key that
goes on from its check finds none on the way, and none recorded. -/
theorem charges_once_iff (calls : τ → Call) {w₀ : World} (h₀ : w₀.Initial) (oid key : String)
    {h : List (Taken τ World)} {c : Config τ World WorkflowError Reply}
    (hrun : (started calls w₀).Run h c) :
    (∀ h₁ c₁, h₁ <+: h → (started calls w₀).Run h₁ c₁ → ChargesOnce oid key h₁ c₁.world)
      ↔ ∀ h₁ s, h₁ ++ [s] <+: h → ChecksAlone calls oid key h₁ s := by
  have hnone : w₀.paidAttempts oid key = [] := by
    simp [World.paidAttempts, World.attempts, h₀.orders]
  refine Follows.iff_good (T := fun i => (calls i).payMove) (F := fun _ _ _ => True)
    (p := fun i => (calls i).payStart) (I := ChargeInv oid key) (P := ChargesOnce oid key)
    (G := ChecksAlone calls oid key) (fun i => (calls i).pays) ⟨fun t => ?_, ?_⟩
    (fun h φ w i w' p hI hT => hI.step hT) ⟨fun t => .nil, ?_, ?_⟩ ?_ hrun
  · rcases hc : calls t <;> simp [Call.payStart, PayPhase.Fits]
  · simp [started, hnone]
  · rintro t t' (⟨s, hs, -⟩ | ⟨s, hs, -⟩) <;> simp at hs
  · simp [started, hnone]
  · intro h φ w i w' p hI hP hT
    rcases payMove_cases hT (hI.fits i) with ⟨hs, hw, hchecked⟩ |
      ⟨⟨env, command, hcall, hoid, hkey⟩, hlen, hsilent, hcharge, -, hw, o, ho, hfree, hopen⟩ |
      ⟨hlen, hunpaid, hfly, hnot, -, a, hw⟩
    · refine ⟨fun _ env command hc h1 h2 hlen o ho hfree hopen => ?_, fun _ => hP.silent hs hw⟩
      obtain ⟨o', ho', hpaid⟩ := hchecked env command hc h1 h2 hlen
      obtain rfl : o' = o := Option.some.inj (ho'.symm.trans ho)
      rcases hpaid with hpaid | hpaid
      · exact absurd hfree hpaid
      · exact absurd hpaid hopen
    · rw [hP.charge_iff hsilent hcharge hw, hI.not_live_iff]
      exact ⟨fun hno _ _ _ _ _ _ _ _ _ _ => hno,
        fun hgood => hgood env command hcall hoid hkey hlen o ho hfree hopen⟩
    · exact ⟨fun _ _ _ _ _ _ hl => by simp [hlen] at hl, fun _ => hP.paid hI hunpaid hfly hnot hw⟩

end Runs

/-- A checkout, and two payments of its order with one key. -/
def sameKeyCalls : Fin 3 → Call
  | 0 => checkoutAt 1000 orderA
  | 1 => payAt 2000 "a" "k1" ⟨.success, some "t1", none⟩
  | 2 => payAt 2000 "a" "k1" ⟨.success, some "t2", none⟩

/-- The second payment checks while the first one's charge is on the way. -/
theorem sameKey_isSome :
    ((started sameKeyCalls heldWorld).history [0, 0, 0, 1, 1, 1, 2, 2, 2, 1, 2]).isSome := by decide

theorem sameKey_paid_twice : ∃ h c, (started sameKeyCalls heldWorld).Run h c
    ∧ (c.world.paidAttempts "a" "k1").length = 2 :=
  ⟨_, _, Config.run_of_history _ (Option.eq_some_of_isSome sameKey_isSome), rfl⟩

theorem charges_once_iff_overlap : ∃ h c, (started sameKeyCalls heldWorld).Run h c
    ∧ ∃ h₁ s, h₁ ++ [s] <+: h ∧ ¬ ChecksAlone sameKeyCalls "a" "k1" h₁ s := by
  obtain ⟨h, c, hrun, hpaid⟩ := sameKey_paid_twice
  refine ⟨h, c, hrun, ?_⟩
  by_contra hno
  push Not at hno
  have honce := (charges_once_iff sameKeyCalls heldWorld_initial "a" "k1" hrun).2 hno h c
    List.prefix_rfl hrun
  have hle := honce.recorded
  omega

/-- Both charges go through, and both are recorded. -/
theorem charges_once_fails : ∃ h c, (started sameKeyCalls heldWorld).Run h c
    ∧ ¬ ChargesOnce "a" "k1" h c.world := by
  obtain ⟨h, c, hrun, hpaid⟩ := sameKey_paid_twice
  refine ⟨h, c, hrun, fun honce => ?_⟩
  have hle := honce.recorded
  omega

end LaunchPad
