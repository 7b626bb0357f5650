import LaunchPad.Proofs.Accounted

/-!
# No money is lost, unless a call loses it

A call about a stored order changes what is accounted for of that order, and of the other orders of
its reservation only where it sells their seat. So every captured transaction is accounted for
after every call of a run if and only if none of its calls loses money (`no_money_lost_iff`).
-/

namespace LaunchPad

open Interleave Rows

variable {w w' : World} {o : Order} {r : Reservation} {c : Call} {t : String}

/-! ## Steps -/

/-- The transaction is refunded, or its order answers for it. -/
def World.AccountsFor (w : World) (id t : String) : Prop :=
  ∃ o r, w.orders.get id = some o ∧ w.reservations.get o.reservationId = some r
    ∧ (w.Refunded t ∨ o.AnswersFor r t)

def Answered (steps : List Step) (w : World) : Prop :=
  ∀ id t, Captured steps w id t → w.AccountsFor id t

theorem captured_snoc {steps : List Step} {s : Step} {events : List PortEvent} {id : String}
    (hlog : w'.log = w.log ++ events) (h : Captured (steps ++ [s]) w' id t) :
    Captured steps w id t ∨ ChargedIn events id t ∨ s.Reports id t := by
  rcases h with ⟨q, res, hmem, hrest⟩ | ⟨s', hs', hrep⟩
  · rw [hlog] at hmem
    rcases List.mem_append.1 hmem with hmem | hmem
    · exact .inl (.inl ⟨q, res, hmem, hrest⟩)
    · exact .inr (.inl ⟨q, res, hmem, hrest⟩)
  · rcases List.mem_append.1 hs' with hs' | hs'
    · exact .inl (.inr ⟨s', hs', hrep⟩)
    · rw [List.mem_singleton] at hs'
      exact .inr (.inr (hs' ▸ hrep))

/-- A call that captures nothing, keeps the orders, and sells no seat. -/
theorem answered_unrelated {steps : List Step} {s : Step} (hP : Answered steps w)
    (hlog : w'.log = w.log) (hno : ∀ id t, ¬ s.Reports id t)
    (horders : ∀ id o, w.orders.get id = some o → w'.orders.get id = some o)
    (hres : ∀ id r, w.reservations.get id = some r → ∃ r', w'.reservations.get id = some r'
      ∧ (r.status ≠ .confirmed → r'.status ≠ .confirmed)) : Answered (steps ++ [s]) w' := by
  intro id t hcap
  rcases captured_snoc (hlog.trans (List.append_nil _).symm) hcap with hcap | ⟨q, res,
    hmem, -⟩ | hrep
  · obtain ⟨o, r, ho, hr, hacc⟩ := hP id t hcap
    obtain ⟨r', hr', hk⟩ := hres _ r hr
    refine ⟨o, r', horders id o ho, hr', hacc.imp (fun h => ?_) fun h => ?_⟩
    · unfold World.Refunded
      rwa [hlog]
    · exact h.imp_right fun h => ⟨h.1, hk h.2⟩
  · cases hmem
  · exact absurd hrep (hno id t)

theorem get_save_unsold (r' : Reservation) (hs : r'.status ≠ .confirmed) (id : String)
    (r₁ : Reservation) (h : w.reservations.get id = some r₁) :
    ∃ r₂, (w.reservations.save r').get id = some r₂
      ∧ (r₁.status ≠ .confirmed → r₂.status ≠ .confirmed) := by
  rw [Repository.get_save]
  split_ifs
  · exact ⟨r', rfl, fun _ => hs⟩
  · exact ⟨r₁, h, fun h => h⟩

theorem Step.Reports.orderId {s : Step} {id : String} (h : s.Reports id t) :
    s.call.orderId = some id ∧ ∃ o, s.before.orders.get id = some o := by
  obtain ⟨env, self, payload, hc, -, rfl, -, ho, -⟩ := h
  exact ⟨by rw [hc]; rfl, ho⟩

section Effect

variable {steps : List Step} {id : String}

theorem Leaves.refunded_iff {α : Type} {e : Effect α} (hw' : Leaves w e w') :
    w'.Refunded t ↔ w.Refunded t ∨ RefundedIn e.events t := by
  unfold World.Refunded
  rw [hw'.log]
  constructor
  · rintro ⟨q, res, hmem, hrest⟩
    exact (List.mem_append.1 hmem).imp (⟨q, res, ·, hrest⟩) (⟨q, res, ·, hrest⟩)
  · rintro (h | h)
    · exact h.mono (List.subset_append_left _ _)
    · exact h.mono (List.subset_append_right _ _)

/-- The call's own order is stored as the call leaves it. -/
theorem Leaves.accountsFor_iff (hw' : Leaves w (c.effect w o r) w') (ho : w.orders.get id = some o)
    (hr : w.reservations.get o.reservationId = some r) :
    w'.AccountsFor id t ↔ w.Refunded t ∨ (c.effect w o r).AccountsFor t := by
  have hf := c.effect_frame w o r
  have hoid : o.id = id := w.orders.get_key ho
  have hrid : r.id = o.reservationId := w.reservations.get_key hr
  have ho' : w'.orders.get id = some (c.effect w o r).order := by
    rw [hw'.orders, Repository.get_save, hf.id, hoid, if_pos rfl]
  have hr' : w'.reservations.get (c.effect w o r).order.reservationId
      = some (c.effect w o r).reservation := by
    rw [hw'.get_reservation hf, hf.reservationId, hrid, if_pos rfl]
  have hall : w'.AccountsFor id t ↔ w'.Refunded t
      ∨ (c.effect w o r).order.AnswersFor (c.effect w o r).reservation t := by
    constructor
    · rintro ⟨o₁, r₁, ho₁, hr₁, h⟩
      obtain rfl := Option.some.inj (ho'.symm.trans ho₁)
      obtain rfl := Option.some.inj (hr'.symm.trans hr₁)
      exact h
    · exact fun h => ⟨_, _, ho', hr', h⟩
  rw [hall, hw'.refunded_iff, Effect.AccountsFor]
  tauto

/-- Of another order only the reservation can have changed. -/
theorem Leaves.accountsFor_other (hw' : Leaves w (c.effect w o r) w')
    (hid : c.orderId = some id) (ho : w.orders.get id = some o)
    (hr : w.reservations.get o.reservationId = some r) {id₁ : String} (hne : id₁ ≠ id)
    (hcap : Captured steps w id₁ t) (hacc : w.AccountsFor id₁ t) (hok : ¬ c.LosesMoney steps w) :
    w'.AccountsFor id₁ t := by
  obtain ⟨o₁, r₁, ho₁, hr₁, hacc⟩ := hacc
  have hf := c.effect_frame w o r
  have hoid : o.id = id := w.orders.get_key ho
  have hrid : r.id = o.reservationId := w.reservations.get_key hr
  have ho₁' : w'.orders.get id₁ = some o₁ := by
    rw [hw'.orders, Repository.get_save_of_ne (by rw [hf.id, hoid]; exact hne), ho₁]
  by_cases hsib : o₁.reservationId = r.id
  · refine ⟨o₁, (c.effect w o r).reservation, ho₁', ?_, ?_⟩
    · rw [hw'.get_reservation hf, if_pos hsib]
    obtain rfl : r = r₁ := by
      rw [hsib, hrid, hr] at hr₁
      exact Option.some.inj hr₁
    by_cases href : w.Refunded t
    · exact .inl (hw'.refunded_iff.2 (.inl href))
    · rcases hacc.resolve_left href with hconf | ⟨howes, hrs⟩
      · exact .inr (.inl hconf)
      · refine .inr (.inr ⟨howes, fun hsold => ?_⟩)
        obtain ⟨hcon, hcan⟩ := Call.effect_sold hsold hrs
        exact hok ⟨id, o, r, hid, ho, hr, .inr (.inr ⟨hcon, hcan, id₁, o₁, t, ho₁,
          hsib.trans hrid, hcap, href, howes⟩)⟩
  · refine ⟨o₁, r₁, ho₁', ?_, hacc.imp_left fun h => hw'.refunded_iff.2 (.inl h)⟩
    rw [hw'.get_reservation hf, if_neg hsib, hr₁]

/-- An order that owes a transaction does not answer for it once its seat is sold. -/
theorem Leaves.sold (hw' : Leaves w (c.effect w o r) w') (ho : w.orders.get id = some o)
    (hr : w.reservations.get o.reservationId = some r) (hcon : c.Confirms w o r)
    (hcan : r.CanConfirm c.checkAt) {id₁ : String} {o₁ : Order} (ho₁ : w.orders.get id₁ = some o₁)
    (hsib : o₁.reservationId = o.reservationId) (href : ¬ w.Refunded t) (howes : o₁.Owes t) :
    ¬ w'.AccountsFor id₁ t := by
  have hf := c.effect_frame w o r
  have hoid : o.id = id := w.orders.get_key ho
  have hrid : r.id = o.reservationId := w.reservations.get_key hr
  have hne : id₁ ≠ id := by
    rintro rfl
    obtain rfl := Option.some.inj (ho.symm.trans ho₁)
    exact howes.1.not_confirmable hcon.confirmable
  rintro ⟨o₂, r₂, ho₂, hr₂, h⟩
  rw [hw'.orders, Repository.get_save_of_ne (by rw [hf.id, hoid]; exact hne), ho₁] at ho₂
  obtain rfl := Option.some.inj ho₂
  rw [hw'.get_reservation hf, if_pos (hsib.trans hrid.symm)] at hr₂
  obtain rfl := Option.some.inj hr₂
  rcases h with h | ⟨hs, -⟩ | ⟨-, hrs⟩
  · exact (hw'.refunded_iff.1 h).elim href (hcon.not_refunded hcan)
  · rcases howes.1 with h | h <;> simp [hs] at h
  · exact hrs (hcon.effect.2.1 hcan)

/-- What is captured with the call is captured for its order. -/
theorem captured_now (hw' : Leaves w (c.effect w o r) w') (hid : c.orderId = some id)
    (ho : w.orders.get id = some o) {id₁ : String} (hold : ¬ Captured steps w id₁ t)
    (hcap : Captured (steps ++ [⟨w, c, (c.effect w o r).result⟩]) w' id₁ t) :
    id₁ = id ∧ c.Captures w o r t := by
  have hoid : o.id = id := w.orders.get_key ho
  rcases captured_snoc hw'.log hcap with h | h | hrep
  · exact absurd h hold
  · obtain ⟨h1, h2⟩ := Call.effect_charges h
    exact ⟨h1.trans hoid, h2⟩
  · have hsame := hrep.orderId.1
    rw [hid] at hsame
    obtain ⟨env, self, payload, hc, hp, -, ht, -, hreply⟩ := hrep
    exact ⟨(Option.some.inj hsame).symm, .inr ⟨env, self, payload, hc, hp, ht, hreply⟩⟩

/-- What the call captures is captured for its order. -/
theorem Call.Captures.captured (hcapt : c.Captures w o r t) (hw' : Leaves w (c.effect w o r) w')
    (hid : c.orderId = some id) (ho : w.orders.get id = some o) :
    Captured (steps ++ [⟨w, c, (c.effect w o r).result⟩]) w' id t := by
  have hoid : o.id = id := w.orders.get_key ho
  rcases hcapt with ⟨result, hch, ht⟩ | ⟨env, self, payload, rfl, hp, ht, reply, hreply⟩
  · cases c with
    | processPayment env command =>
      obtain ⟨q, hmem, hq⟩ := payment_answers (r := r) hch
      refine .inl ⟨q, result, ?_, hq.trans hoid, hch.2.2.2, ht⟩
      rw [hw'.log]
      exact List.mem_append_right _ hmem
    | handlePaymentWebhook => exact hch.elim
    | initiateCheckout => exact hch.elim
    | expire => exact hch.elim
    | compensateOrder => exact hch.elim
    | retryCompensation => exact hch.elim
  · exact .inr ⟨_, List.mem_append_right _ (List.mem_singleton_self _), env, self, payload, rfl, hp,
      Option.some.inj hid, ht, ⟨o, ho⟩, reply, hreply⟩

theorem Leaves.captured {e : Effect Reply} (hw' : Leaves w e w') {s : Step} {id₁ : String}
    (h : Captured steps w id₁ t) : Captured (steps ++ [s]) w' id₁ t := by
  rcases h with ⟨q, res, hmem, hrest⟩ | ⟨s', hs', hrep⟩
  · refine .inl ⟨q, res, ?_, hrest⟩
    rw [hw'.log]
    exact List.mem_append_left _ hmem
  · exact .inr ⟨s', List.mem_append_left _ hs', hrep⟩

/-- A call about a stored order leaves every captured transaction accounted for, unless it loses
money. -/
theorem answered_effect (hP : Answered steps w) (hid : c.orderId = some id)
    (ho : w.orders.get id = some o) (hr : w.reservations.get o.reservationId = some r)
    (hw' : Leaves w (c.effect w o r) w') (hok : ¬ c.LosesMoney steps w) :
    Answered (steps ++ [⟨w, c, (c.effect w o r).result⟩]) w' := by
  intro id₁ t hcap
  by_cases hold : Captured steps w id₁ t
  · have hacc := hP id₁ t hold
    rcases eq_or_ne id₁ id with rfl | hne
    · rw [hw'.accountsFor_iff ho hr, or_iff_not_imp_left]
      intro href
      obtain ⟨o₁, r₁, ho₁, hr₁, hans⟩ := hacc
      obtain rfl : o = o₁ := by simpa [ho] using ho₁
      obtain rfl : r = r₁ := by simpa [hr] using hr₁
      have hans := hans.resolve_left href
      exact (Call.effect_keeps_iff hans).2 fun hforget =>
        hok ⟨id₁, o, r, hid, ho, hr, .inr (.inl ⟨t, hold, href, hans, hforget⟩)⟩
    · exact hw'.accountsFor_other hid ho hr hne hold hacc hok
  · obtain ⟨rfl, hcapt⟩ := captured_now hw' hid ho hold hcap
    rw [hw'.accountsFor_iff ho hr, or_iff_not_imp_left]
    intro href
    exact (Call.effect_takes_iff hcapt).2 fun hlose =>
      hok ⟨id₁, o, r, hid, ho, hr, .inl ⟨t, hold, href, hlose⟩⟩

/-- A call that loses money leaves a captured transaction unaccounted for. -/
theorem lost_effect (hid : c.orderId = some id)
    (ho : w.orders.get id = some o) (hr : w.reservations.get o.reservationId = some r)
    (hw' : Leaves w (c.effect w o r) w') (hbad : c.LosesMoney steps w) :
    ¬ Answered (steps ++ [⟨w, c, (c.effect w o r).result⟩]) w' := by
  obtain ⟨id', o', r', hid', ho', hr', hbad⟩ := hbad
  obtain rfl := Option.some.inj (hid.symm.trans hid')
  obtain rfl := Option.some.inj (ho.symm.trans ho')
  obtain rfl := Option.some.inj (hr.symm.trans hr')
  intro hP
  rcases hbad with ⟨t, -, href, hlose⟩ | ⟨t, hold, href, hans, hforget⟩ |
    ⟨hcon, hcan, id₁, o₁, t, ho₁, hsib, hold, href, howes⟩
  · have hcapt : c.Captures w o r t := hlose.captures
    rcases (hw'.accountsFor_iff ho hr).1 (hP id t (hcapt.captured hw' hid ho)) with h | h
    · exact href h
    · exact (Call.effect_takes_iff hcapt).1 h hlose
  · rcases (hw'.accountsFor_iff ho hr).1 (hP id t (hw'.captured hold)) with h | h
    · exact href h
    · exact (Call.effect_keeps_iff hans).1 h hforget
  · exact hw'.sold ho hr hcon hcan ho₁ hsib href howes (hP id₁ t (hw'.captured hold))

end Effect

theorem answered_step {steps : List Step} (hl : w.Linked) {reply : Except WorkflowError Reply}
    (h : c.run w = some (reply, w')) (hP : Answered steps w) (hok : ¬ c.LosesMoney steps w) :
    Answered (steps ++ [⟨w, c, reply⟩]) w' := by
  have hnone : c.orderId = none → ∀ id t, ¬ Step.Reports ⟨w, c, reply⟩ id t := by
    intro hn id t hrep
    have := hrep.orderId.1
    simp [hn] at this
  rcases Call.cases hl h with ⟨hs, hmissing⟩ | ⟨id, o, r, hid, ho, hr, rfl, hw'⟩ |
    ⟨uid, r, amount, hn, -, -, hfresh, rfl⟩ | ⟨r, hn, -, -, rfl⟩
  · refine answered_unrelated hP hs.log (fun id t hrep => ?_) (fun id o ho => by rw [hs.orders, ho])
      fun id r hr => ⟨r, by rw [hs.reservations, hr], fun h => h⟩
    obtain ⟨hid, o, ho⟩ := hrep.orderId
    have hgone : w.orders.get id = none := hmissing id hid
    simp [hgone] at ho
  · exact answered_effect hP hid ho hr hw' hok
  · refine answered_unrelated hP rfl (hnone hn) (fun id o ho => ?_)
      (get_save_unsold { r with status := .paymentPending } (by simp))
    rw [← ho]
    refine Repository.get_save_of_ne ?_
    rintro rfl
    have ho' : w.orders.get uid.val = some o := ho
    simp [hfresh] at ho'
  · exact answered_unrelated hP rfl (hnone hn) (fun _ _ ho => ho)
      (get_save_unsold { r with status := .expired } (by simp))

/-! ## Runs -/

/-- What an order would be refunded by its next compensation. -/
theorem nextRefund_iff {id : String} (ho : w.orders.get id = some o)
    (hr : w.reservations.get o.reservationId = some r) (hs : o.status ≠ .cancelledRefunded) :
    w.NextRefund id t ↔ o.refundTarget none = some t ∧ r.status ≠ .confirmed := by
  constructor
  · intro h
    obtain ⟨reply, w', request, rest, hrun, hlog, hreq⟩ := h (refundAt 0) .retry
    have hw' := (Call.run_eq_effect hrun rfl ho hr).2
    rw [hw'.log] at hlog
    have hev : (compensation (refundAt 0) none .retry o r).events
        = .refundRequested request :: rest := List.append_cancel_left hlog
    rcases compensation_cases (refundAt 0) none .retry o r with ⟨-, -, hev', -⟩ |
      ⟨r', hrel, -, -, h'⟩
    · simp [hev] at hev'
    refine ⟨?_, fun hc => Reservation.not_released hc hrel⟩
    rcases h' with ⟨-, hev', -⟩ | ⟨t', ht', ⟨-, -, hev'⟩ | ⟨res, -, -, hev'⟩⟩
    · simp [hev] at hev'
    all_goals
      rw [hev] at hev'
      obtain ⟨hq, -⟩ := List.cons.inj hev'
      cases hq
      rw [ht', ← hreq]
      rfl
  · rintro ⟨ht, hrs⟩ env reason
    obtain ⟨w', hrun, hw'⟩ := Call.run_effect (c := .compensateOrder env id none reason) rfl ho hr
    have hlog : w'.log = w.log ++ (compensation env none reason o r).events := hw'.log
    rcases compensation_cases env none reason o r with ⟨-, -, -, hs' | hs'⟩ | ⟨r', -, -, -, h'⟩
    · exact absurd hs' hs
    · exact absurd hs' hrs
    rcases h' with ⟨hn, -⟩ | ⟨t', ht', hev⟩
    · simp [ht] at hn
    obtain rfl : t = t' := by simpa [ht] using ht'
    rcases hev with ⟨-, -, hev⟩ | ⟨res, -, -, hev⟩
    · exact ⟨_, w', _, _, hrun, hlog.trans (by rw [hev]), rfl⟩
    · exact ⟨_, w', _, _, hrun, hlog.trans (by rw [hev]), rfl⟩

theorem noMoneyLost_iff {steps : List Step} (hl : w.Linked) :
    NoMoneyLost steps w ↔ Answered steps w := by
  refine forall_congr' fun id => forall_congr' fun t => imp_congr_right fun _ => ?_
  constructor
  · rintro ⟨o, ho, hacc⟩
    obtain ⟨r, hr⟩ := hl id o ho
    refine ⟨o, r, ho, hr, ?_⟩
    rcases hacc with hconf | href | ⟨hunpaid, hnext⟩
    · exact .inr (.inl hconf)
    · exact .inl href
    · obtain ⟨ht, hrs⟩ := (nextRefund_iff ho hr hunpaid.ne_cancelledRefunded).1 hnext
      exact .inr (.inr ⟨⟨hunpaid, ht⟩, hrs⟩)
  · rintro ⟨o, r, ho, hr, href | hconf | ⟨howes, hrs⟩⟩
    · exact ⟨o, ho, .inr (.inl href)⟩
    · exact ⟨o, ho, .inl hconf⟩
    · exact ⟨o, ho, .inr (.inr ⟨howes.1,
        (nextRefund_iff ho hr howes.1.ne_cancelledRefunded).2 ⟨howes.2, hrs⟩⟩)⟩

theorem answered_of_initial (h : w.Initial) : Answered [] w := by
  rintro id t (⟨q, res, hmem, -⟩ | ⟨s, hs, -⟩)
  · simp [h.log] at hmem
  · cases hs

theorem lost_step {steps : List Step} {reply : Except WorkflowError Reply}
    (h : c.run w = some (reply, w')) (hbad : c.LosesMoney steps w) :
    ¬ Answered (steps ++ [⟨w, c, reply⟩]) w' := by
  have ⟨_, _, _, hid, ho, hr, _⟩ := hbad
  obtain ⟨rfl, hw'⟩ := Call.run_eq_effect h hid ho hr
  exact lost_effect hid ho hr hw' hbad

/-- Every captured transaction is accounted for after every call of a run if and only if none of
its calls loses money. -/
theorem no_money_lost_iff {w₀ : World} (h₀ : w₀.Initial) {steps : List Step}
    (h : Run w₀ steps w) :
    ((∀ pre s, pre ++ [s] <+: steps → NoMoneyLost pre s.before) ∧ NoMoneyLost steps w)
      ↔ ∀ pre s, pre ++ [s] <+: steps → ¬ s.call.LosesMoney pre s.before := by
  rw [noMoneyLost_iff (h.linked (linked_of_initial h₀))]
  induction h with
  | nil => simp [answered_of_initial h₀]
  | @snoc steps w₁ w₂ reply hrun c hc ih =>
    have hl := hrun.linked (linked_of_initial h₀)
    rw [← noMoneyLost_iff hl] at ih
    have hinitial : ∀ P : List Step → Step → Prop,
        (∀ pre s, pre ++ [s] <+: steps ++ [⟨w₁, c, reply⟩] → P pre s)
          ↔ (∀ pre s, pre ++ [s] <+: steps → P pre s) ∧ P steps ⟨w₁, c, reply⟩ := by
      intro P
      refine ⟨fun hall => ⟨fun pre s hpre => hall pre s (hpre.trans (List.prefix_append _ _)),
        hall _ _ (List.prefix_refl _)⟩, fun ⟨hall, hlast⟩ pre s hpre => ?_⟩
      rcases List.prefix_concat_iff.1 hpre with heq | hpre
      · obtain ⟨rfl, hs⟩ := List.append_inj' heq rfl
        obtain rfl := List.singleton_inj.1 hs
        exact hlast
      · exact hall pre s hpre
    rw [hinitial, hinitial, ih]
    constructor
    · rintro ⟨hok, hP⟩
      exact ⟨hok, fun hbad => lost_step hc hbad hP⟩
    · rintro ⟨hok, hnot⟩
      exact ⟨hok, answered_step hl hc ((noMoneyLost_iff hl).1 (ih.2 hok).2) hnot⟩

/-- A checkout, and the payment of its order. -/
def paidOnce : List Call := [checkoutAt 1 orderA, payAt 2 "a" "k1" ⟨.success, some "t1", none⟩]

theorem paidOnce_isSome : (runCalls [] heldWorld paidOnce).isSome := by decide

/-- Before the payment nothing has been captured, and the payment confirms its order. -/
theorem paidOnce_keeps (pre : List Step) (s : Step)
    (h : pre ++ [s] <+: ((runCalls [] heldWorld paidOnce).get paidOnce_isSome).1) :
    ¬ s.call.LosesMoney pre s.before := by
  have hcalls := (run_runCalls paidOnce_isSome).2
  have hlog : ∀ s ∈ ((runCalls [] heldWorld paidOnce).get paidOnce_isSome).1,
      s.before.log = [] := by decide
  have hfound : ∀ s ∈ ((runCalls [] heldWorld paidOnce).get paidOnce_isSome).1,
      s.call.orderId ≠ none → s.before.orders.get "a"
          = some (.ofReservation orderA heldSeat ⟨5000, "USD"⟩)
        ∧ s.before.reservations.get "r1" = some { heldSeat with status := .paymentPending } := by
    decide
  have hcall : ∀ s ∈ ((runCalls [] heldWorld paidOnce).get paidOnce_isSome).1,
      s.call = checkoutAt 1 orderA ∨ s.call = payAt 2 "a" "k1" ⟨.success, some "t1", none⟩ := by
    intro s hs
    have hmem : s.call ∈ paidOnce := hcalls ▸ List.mem_map_of_mem hs
    simpa [paidOnce] using hmem
  have hs : s ∈ ((runCalls [] heldWorld paidOnce).get paidOnce_isSome).1 :=
    h.subset (List.mem_append_right _ (List.mem_singleton_self s))
  have hnew : ∀ id t, ¬ Captured pre s.before id t := by
    rintro id t (⟨q, res, hmem, -⟩ | ⟨s', hs', env, self, payload, hc, -⟩)
    · simp [hlog s hs] at hmem
    · rcases hcall s' (h.subset (List.mem_append_left _ hs')) with h | h <;>
        simp [h, checkoutAt, payAt] at hc
  rintro ⟨id, o, r, hid, ho, hr, ⟨t, -, -, hlose⟩ | ⟨t, hold, -⟩ | ⟨-, -, id', o', t,
    -, -, hold, -⟩⟩
  · rcases hcall s hs with hc | hc
    · simp [hc, checkoutAt, Call.orderId] at hid
    rw [hc] at hlose hid
    obtain rfl : "a" = id := by simpa [payAt, Call.orderId] using hid
    obtain ⟨ho', hr'⟩ := hfound s hs (by rw [hc]; simp [payAt, Call.orderId])
    obtain rfl := Option.some.inj (ho.symm.trans ho')
    obtain rfl := Option.some.inj (hr.symm.trans hr')
    rcases hlose with ⟨env, command, result, -, -, -, hno, -⟩ | ⟨hlate, -⟩ | ⟨hignored, -⟩
    · exact hno ⟨rfl, .inl rfl, rfl, _, rfl, rfl, .inl ⟨.inr rfl, by decide⟩⟩
    · exact hlate.elim
    · exact hignored.elim
  · exact hnew id t hold
  · exact hnew id' t hold

theorem no_money_lost_iff_paidOnce :
    ∃ steps w, Run heldWorld steps w ∧ Captured steps w "a" "t1" ∧ NoMoneyLost steps w := by
  refine ⟨_, _, (run_runCalls paidOnce_isSome).1, .inl ?_,
    ((no_money_lost_iff heldWorld_initial (run_runCalls paidOnce_isSome).1).2 paidOnce_keeps).2⟩
  have hlog : .chargeAnswered ⟨"payment", "a", ⟨5000, "USD"⟩, "card", "k1", none⟩
      ⟨.success, some "t1", none⟩ ∈ ((runCalls [] heldWorld paidOnce).get paidOnce_isSome).2.log := by
    decide
  exact ⟨_, _, hlog, rfl, rfl, rfl⟩

/-- The order is paid, and then a second payment of it is reported. -/
def paidTwice : List Call := paidOnce ++ [paidAt 3 "evt" "a" "t2"]

theorem paidTwice_isSome : (runCalls [] heldWorld paidTwice).isSome := by decide

theorem paidTwice_loses :
    ¬ NoMoneyLost ((runCalls [] heldWorld paidTwice).get paidTwice_isSome).1
      ((runCalls [] heldWorld paidTwice).get paidTwice_isSome).2 := by
  have hcap : Captured ((runCalls [] heldWorld paidTwice).get paidTwice_isSome).1
      ((runCalls [] heldWorld paidTwice).get paidTwice_isSome).2 "a" "t2" := by
    refine .inr ⟨((runCalls [] heldWorld paidTwice).get paidTwice_isSome).1.get ⟨2, by decide⟩,
      List.get_mem _ _, _, _, _, rfl, rfl, rfl, rfl, ⟨_, rfl⟩, _, rfl⟩
  have horder : (((runCalls [] heldWorld paidTwice).get paidTwice_isSome).2.orders.get "a").map
      (fun o => (o.status, o.providerTransactionId)) = some (.confirmed, some "t1") := by decide
  have hlog : ∀ ev ∈ ((runCalls [] heldWorld paidTwice).get paidTwice_isSome).2.log,
      ∀ q res, ev ≠ .refundAnswered q res := by
    have hlog : ((runCalls [] heldWorld paidTwice).get paidTwice_isSome).2.log =
      [.chargeRequested ⟨"payment", "a", ⟨5000, "USD"⟩, "card", "k1", none⟩,
        .chargeAnswered ⟨"payment", "a", ⟨5000, "USD"⟩, "card", "k1", none⟩
          ⟨.success, some "t1", none⟩, .ticketRequested "a", .ticketIssued "a"] := by decide
    simp [hlog]
  intro hP
  obtain ⟨o, ho, hacc⟩ := hP "a" "t2" hcap
  rw [ho] at horder
  simp only [Option.map_some, Option.some.injEq, Prod.mk.injEq] at horder
  rcases hacc with ⟨-, hp⟩ | ⟨q, res, hmem, -⟩ | ⟨hs | hs, -⟩
  · simp [horder.2] at hp
  · exact hlog _ hmem q res rfl
  · simp [horder.1] at hs
  · simp [horder.1] at hs

/-- With a gateway that answers and a clock that never goes back, a payment is lost. -/
theorem second_payment_lost :
    heldWorld.Initial ∧ ∃ steps w, Run heldWorld steps w
      ∧ (∀ s ∈ steps, s.call.GatewayAnswers)
      ∧ ((steps.map Step.call).flatMap Call.readings).Pairwise (· ≤ ·)
      ∧ ¬ NoMoneyLost steps w := by
  obtain ⟨hrun, hcalls⟩ := run_runCalls paidTwice_isSome
  refine ⟨heldWorld_initial, _, _, hrun, fun s hs => ?_, ?_, paidTwice_loses⟩
  · have hmem : s.call ∈ paidTwice := hcalls ▸ List.mem_map_of_mem hs
    have hall : ∀ c ∈ paidTwice, c.GatewayAnswers := by
      simp [paidTwice, paidOnce, checkoutAt, payAt, paidAt, refundAt, Call.GatewayAnswers]
    exact hall s.call hmem
  · rw [hcalls]
    decide

end LaunchPad
