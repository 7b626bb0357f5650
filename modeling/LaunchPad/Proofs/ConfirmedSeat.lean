import LaunchPad.Proofs.Effects
import LaunchPad.Proofs.Repertoire

/-!
# A sold seat keeps its order, and an order taken back its seat no longer

Calls run side by side, suspended at every `await`. A reservation changes its status only while it
is open, and every segment that confirms one has confirmed its order before in the same segment.
An order leaves CONFIRMED only in the last segment of a compensation, which has found the
reservation CANCELLED or EXPIRED, or made it so: it is so for good, so the order is of no sold
seat, and an order that was taken back has released its hold. That is what every segment
guarantees (`FlowGuarantee`), whatever the other calls do.
-/

namespace LaunchPad

open Interleave Rows

/-- The reservation is CONFIRMED. -/
def World.Sold (w : World) (reservationId : String) : Prop :=
  ∃ r, w.reservations.get reservationId = some r ∧ r.status = .confirmed

/-- Some order of the reservation is CONFIRMED. -/
def World.HasConfirmed (w : World) (reservationId : String) : Prop :=
  ∃ id o, w.orders.get id = some o ∧ o.reservationId = reservationId ∧ o.status = .confirmed

/-- The order was taken back. -/
def Order.Undone (o : Order) : Prop :=
  o.status = .cancelled ∨ o.status = .compensationPending ∨ o.status = .cancelledRefunded

/-- Every order has its reservation, and where it was taken back the hold is released. -/
structure World.Sound (w : World) : Prop where
  linked : w.Linked
  undone : ∀ id o, w.orders.get id = some o → o.Undone →
    ∃ r, w.reservations.get o.reservationId = some r ∧ (r.status = .cancelled ∨ r.status = .expired)

/-- What a segment does to the stores. -/
structure FlowGuarantee (w w' : World) : Prop where
  reservations : ∀ id r, w.reservations.get id = some r →
    ∃ r', w'.reservations.get id = some r' ∧ r.Moves r'
  orders : ∀ id o, w.orders.get id = some o →
    ∃ o', w'.orders.get id = some o' ∧ o'.reservationId = o.reservationId
      ∧ (o.status = .confirmed → w.Sold o.reservationId → o'.status = .confirmed)
  sold : ∀ id, w'.Sold id → w.Sold id ∨ w'.HasConfirmed id
  sound : w.Sound → w'.Sound

theorem Reservation.Moves.gone {r r' : Reservation} (h : r.Moves r')
    (hr : r.status = .cancelled ∨ r.status = .expired) :
    r'.status = .cancelled ∨ r'.status = .expired := by
  rcases h with rfl | ⟨hopen, -⟩
  · exact hr
  · rcases hopen with hopen | hopen <;> simp [hopen] at hr

theorem flow_refl (w : World) : FlowGuarantee w w where
  reservations _ r hr := ⟨r, hr, .inl rfl⟩
  orders _ o ho := ⟨o, ho, rfl, fun hs _ => hs⟩
  sold _ h := .inl h
  sound h := h

theorem FlowGuarantee.sold_stays {w w' : World} (h : FlowGuarantee w w') {id : String}
    (hs : w.Sold id) : w'.Sold id := by
  obtain ⟨r, hr, hc⟩ := hs
  obtain ⟨r', hr', hm⟩ := h.reservations id r hr
  exact ⟨r', hr', hm.confirmed hc⟩

/-- A CONFIRMED order of a sold seat stays CONFIRMED. -/
theorem FlowGuarantee.confirmed_stays {w w' : World} (h : FlowGuarantee w w') {id rid : String}
    {o : Order} (ho : w.orders.get id = some o) (hrid : o.reservationId = rid)
    (hs : o.status = .confirmed) (hsold : w.Sold rid) :
    ∃ o', w'.orders.get id = some o' ∧ o'.reservationId = rid ∧ o'.status = .confirmed := by
  obtain ⟨o', ho', hr', hc⟩ := h.orders id o ho
  exact ⟨o', ho', hr'.trans hrid, hc hs (hrid ▸ hsold)⟩

theorem flow_trans {w₁ w₂ w₃ : World} (h : FlowGuarantee w₁ w₂) (h' : FlowGuarantee w₂ w₃) :
    FlowGuarantee w₁ w₃ where
  reservations id r hr := by
    obtain ⟨r', hr', hm⟩ := h.reservations id r hr
    obtain ⟨r'', hr'', hm'⟩ := h'.reservations id r' hr'
    exact ⟨r'', hr'', hm.trans hm'⟩
  orders id o ho := by
    obtain ⟨o', ho', hrid, hs⟩ := h.orders id o ho
    obtain ⟨o'', ho'', hrid', hs'⟩ := h'.orders id o' ho'
    refine ⟨o'', ho'', hrid'.trans hrid, fun hc hsold => hs' (hs hc hsold) ?_⟩
    rw [hrid]
    exact h.sold_stays hsold
  sold id hs := by
    rcases h'.sold id hs with hs' | hc
    · rcases h.sold id hs' with hs'' | ⟨oid, o, ho, hrid, hc⟩
      · exact .inl hs''
      · obtain ⟨o', ho', hrid', hc'⟩ := h'.confirmed_stays ho hrid hc hs'
        exact .inr ⟨oid, o', ho', hrid', hc'⟩
    · exact .inr hc
  sound hs := h'.sound (h.sound hs)

/-! ## What the calls know between their segments -/

/-- The stored order belongs to the reservation. -/
def Owns (oid rid : String) (w : World) : Prop :=
  w.Sound ∧ ∃ o, w.orders.get oid = some o ∧ o.reservationId = rid

/-- The hold of the order is released for good. -/
def Gone (oid : String) (w : World) : Prop :=
  w.Sound ∧ ∃ o, w.orders.get oid = some o ∧ ∃ r, w.reservations.get o.reservationId = some r
    ∧ (r.status = .cancelled ∨ r.status = .expired)

theorem stable_sound : Stable FlowGuarantee World.Sound := fun _ _ h hG => hG.sound h

theorem stable_owns (oid rid : String) : Stable FlowGuarantee (Owns oid rid) := by
  rintro w w' ⟨hl, o, ho, hrid⟩ hG
  obtain ⟨o', ho', hrid', -⟩ := hG.orders oid o ho
  exact ⟨hG.sound hl, o', ho', hrid'.trans hrid⟩

theorem stable_gone (oid : String) : Stable FlowGuarantee (Gone oid) := by
  rintro w w' ⟨hl, o, ho, r, hr, hs⟩ hG
  obtain ⟨o', ho', hrid', -⟩ := hG.orders oid o ho
  obtain ⟨r', hr', hm⟩ := hG.reservations _ r hr
  exact ⟨hG.sound hl, o', ho', r', hrid' ▸ hr', hm.gone hs⟩

/-! ## The stores' own operations -/

theorem wp_mutateOrder {id : String} {f : Order → Except WorkflowError Order}
    {Q : Except WorkflowError Unit → World → Prop} {w : World}
    (h : ∀ o, w.orders.get id = some o → o.id = id →
      post (fun o' _ => Q (.ok ()) (w.saveOrder o')) (fun e _ => Q (.error e) w) (f o) w) :
    (mutateOrder id f).wp Q w := by
  intro r w' hs
  obtain ⟨o, ho, hid, ⟨e, hf, rfl, rfl⟩ | ⟨o', hf, rfl, rfl⟩⟩ := mutateOrder_eq_some hs
  · simpa [hf] using h o ho hid
  · simpa [hf] using h o ho hid

theorem wp_mutateReservation {id : String} {f : Reservation → Except WorkflowError Reservation}
    {Q : Except WorkflowError Unit → World → Prop} {w : World}
    (h : ∀ r, w.reservations.get id = some r → r.id = id →
      post (fun r' _ => Q (.ok ()) (w.saveReservation r')) (fun e _ => Q (.error e) w) (f r) w) :
    (mutateReservation id f).wp Q w := by
  intro r w' hs
  obtain ⟨v, hv, hid, ⟨e, hf, rfl, rfl⟩ | ⟨v', hf, rfl, rfl⟩⟩ := mutateReservation_eq_some hs
  · simpa [hf] using h v hv hid
  · simpa [hf] using h v hv hid

theorem flow_saveOrder {w : World} {o o' : Order} (ho : w.orders.get o.id = some o)
    (hid : o'.id = o.id) (hrid : o'.reservationId = o.reservationId)
    (hs : o.status = .confirmed → w.Sold o.reservationId → o'.status = .confirmed)
    (hu : o'.Undone → o.Undone ∨ ∃ r, w.reservations.get o.reservationId = some r
      ∧ (r.status = .cancelled ∨ r.status = .expired)) :
    FlowGuarantee w (w.saveOrder o') where
  reservations _ r hr := ⟨r, hr, .inl rfl⟩
  orders id o₁ ho₁ := by
    by_cases h : id = o.id
    · rw [h, ho] at ho₁
      obtain rfl := Option.some.inj ho₁
      exact ⟨o', by rw [h, ← hid]; exact Repository.get_save_self _ o', hrid, hs⟩
    · exact ⟨o₁, by rw [← ho₁]; exact Repository.get_save_of_ne (by rwa [hid]), rfl,
        fun hc _ => hc⟩
  sold _ h := .inl h
  sound hw := by
    refine ⟨fun id o₁ ho₁ => ?_, fun id o₁ ho₁ hu₁ => ?_⟩ <;>
      change (w.orders.save o').get id = some o₁ at ho₁ <;> rw [Repository.get_save] at ho₁ <;>
      split_ifs at ho₁
    · rw [← Option.some.inj ho₁, hrid]
      exact hw.linked o.id o ho
    · exact hw.linked id o₁ ho₁
    · rw [← Option.some.inj ho₁] at hu₁ ⊢
      rw [hrid]
      rcases hu hu₁ with hu' | hr
      · exact hw.undone o.id o ho hu'
      · exact hr
    · exact hw.undone id o₁ ho₁ hu₁

/-- Where one reservation is stored in a later state, every reservation has moved or stayed. -/
theorem get_saveReservation {w : World} {r r' : Reservation}
    (hr : w.reservations.get r.id = some r) (hm : r.Moves r') (id : String) (r₁ : Reservation)
    (hr₁ : w.reservations.get id = some r₁) :
    ∃ r₂, (w.saveReservation r').reservations.get id = some r₂ ∧ r₁.Moves r₂ := by
  by_cases h : id = r.id
  · rw [h, hr] at hr₁
    obtain rfl := Option.some.inj hr₁
    exact ⟨r', by rw [h, ← hm.id]; exact Repository.get_save_self _ r', hm⟩
  · exact ⟨r₁, by rw [← hr₁]; exact Repository.get_save_of_ne (by rwa [hm.id]), .inl rfl⟩

theorem flow_saveReservation {w : World} {r r' : Reservation}
    (hr : w.reservations.get r.id = some r) (hm : r.Moves r')
    (hs : r'.status = .confirmed → r.status = .confirmed ∨ w.HasConfirmed r.id) :
    FlowGuarantee w (w.saveReservation r') where
  reservations := get_saveReservation hr hm
  orders _ o ho := ⟨o, ho, rfl, fun hc _ => hc⟩
  sold id h := by
    obtain ⟨r₁, hr₁, hc⟩ := h
    change (w.reservations.save r').get id = some r₁ at hr₁
    rw [Repository.get_save, hm.id] at hr₁
    split_ifs at hr₁ with hid
    · obtain rfl := Option.some.inj hr₁
      rcases hs hc with hc' | ⟨oid, o, ho, hrid, hco⟩
      · exact .inl ⟨r, by rw [hid, hr], hc'⟩
      · exact .inr ⟨oid, o, ho, by rw [hrid, hid], hco⟩
    · exact .inl ⟨r₁, hr₁, hc⟩
  sound hw := by
    have hget := get_saveReservation hr hm
    -- a reservation whose hold is released does not move
    refine ⟨fun id o ho => ?_, fun id o ho hu => ?_⟩
    · obtain ⟨r₁, hr₁⟩ := hw.linked id o ho
      obtain ⟨r₂, hr₂, -⟩ := hget _ r₁ hr₁
      exact ⟨r₂, hr₂⟩
    · obtain ⟨r₁, hr₁, hgone⟩ := hw.undone id o ho hu
      obtain ⟨r₂, hr₂, hm₂⟩ := hget _ r₁ hr₁
      exact ⟨r₂, hr₂, hm₂.gone hgone⟩

/-! ## Segments -/

/-- A segment that throws leaves the stores sound. -/
abbrev Seg {α : Type} (P : World → Prop) (s : Segment α) (K : α → World → Prop) : Prop :=
  Within FlowGuarantee P s (post K fun _ => World.Sound)

section Segments

variable {P : World → Prop} {α β : Type}

theorem Seg.bind {s : Segment β} {f : β → Segment α} {K : β → World → Prop}
    {K' : α → World → Prop} (hs : Seg P s K) (hf : ∀ b, Seg (K b) (f b) K') : Seg P (s >>= f) K' :=
  Within.bind (G := FlowGuarantee) (fun _ _ _ => flow_trans) hs hf fun _ _ h => h

theorem Seg.pure {a : α} {K : α → World → Prop} (h : ∀ w, P w → K a w) :
    Seg P (Pure.pure a : Segment α) K := Within.pure flow_refl h

theorem Seg.throw {e : WorkflowError} {K : α → World → Prop} (h : ∀ w, P w → w.Sound) :
    Seg P (MonadExcept.throw e : Segment α) K := Within.throw flow_refl h

/-- What a method may do to an order that may be of a sold seat, or of one that is held. -/
def KeepsConfirmed (f : Order → Except WorkflowError Order) : Prop :=
  ∀ o o', f o = .ok o' → o'.id = o.id ∧ o'.reservationId = o.reservationId
    ∧ (o.status = .confirmed → o'.status = .confirmed) ∧ (o'.Undone → o.Undone)

theorem seg_mutateOrder (hP : Stable FlowGuarantee P) (hl : ∀ w, P w → w.Sound) {id : String}
    {f : Order → Except WorkflowError Order} (hf : KeepsConfirmed f) :
    Seg P (mutateOrder id f) fun _ => P := by
  intro w hw
  refine wp_mutateOrder fun o ho hid => ?_
  rcases he : f o with e | o'
  · exact ⟨flow_refl w, hl w hw⟩
  · obtain ⟨h1, h2, h3, h4⟩ := hf o o' he
    have hG := flow_saveOrder (hid ▸ ho) h1 h2 (fun hs _ => h3 hs) fun hu => .inl (h4 hu)
    exact ⟨hG, hP _ _ hw hG⟩

/-- Once its hold is gone, anything may be done to an order. -/
theorem seg_mutateOrder_gone {oid : String} {f : Order → Except WorkflowError Order}
    (hf : ∀ o o', f o = .ok o' → o'.id = o.id ∧ o'.reservationId = o.reservationId) :
    Seg (Gone oid) (mutateOrder oid f) fun _ => Gone oid := by
  intro w hw
  refine wp_mutateOrder fun o ho hoid => ?_
  obtain ⟨-, o₁, ho₁, r, hr, hgone⟩ := id hw
  obtain rfl : o = o₁ := by simpa [ho] using ho₁
  rcases he : f o with e | o'
  · exact ⟨flow_refl w, hw.1⟩
  obtain ⟨hid, hrid⟩ := hf o o' he
  have hG := flow_saveOrder (w := w) (hoid ▸ ho) hid hrid (fun _ hsold => by
    obtain ⟨r', hr', hc⟩ := hsold
    rw [hr] at hr'
    rw [← Option.some.inj hr'] at hc
    simp [hc] at hgone) fun _ => .inr ⟨r, hr, hgone⟩
  exact ⟨hG, stable_gone oid _ _ hw hG⟩

theorem seg_mutateReservation (hP : Stable FlowGuarantee P) (hl : ∀ w, P w → w.Sound)
    {id : String} {f : Reservation → Except WorkflowError Reservation}
    (hf : ∀ r r', f r = .ok r' → r.Moves r' ∧ (r'.status = .confirmed → r.status = .confirmed)) :
    Seg P (mutateReservation id f) fun _ => P := by
  intro w hw
  refine wp_mutateReservation fun r hr hid => ?_
  rcases he : f r with e | r'
  · exact ⟨flow_refl w, hl w hw⟩
  · obtain ⟨h1, h2⟩ := hf r r' he
    have hG := flow_saveReservation (hid ▸ hr) h1 fun hc => .inl (h2 hc)
    exact ⟨hG, hP _ _ hw hG⟩

theorem keepsConfirmed_ok : KeepsConfirmed .ok := by
  intro o o' h
  obtain rfl := Except.ok.inj h
  exact ⟨rfl, rfl, fun hs => hs, fun hu => hu⟩

theorem seg_orderRepoSave (hP : Stable FlowGuarantee P) (hl : ∀ w, P w → w.Sound) (id : String) :
    Seg P (orderRepoSave id) fun _ => P := seg_mutateOrder hP hl keepsConfirmed_ok

theorem seg_reservationRepoSave (hP : Stable FlowGuarantee P) (hl : ∀ w, P w → w.Sound)
    (id : String) : Seg P (reservationRepoSave id) fun _ => P := by
  refine seg_mutateReservation hP hl fun r r' h => ?_
  obtain rfl := Except.ok.inj h
  exact ⟨.inl rfl, fun hs => hs⟩

/-- A write to the log or to the events seen. -/
theorem seg_modify {f : World → World} (hP : Stable FlowGuarantee P)
    (hf : ∀ w, (f w).orders = w.orders ∧ (f w).reservations = w.reservations) :
    Seg P (Sync.modify f) fun _ => P := by
  intro w hw
  have hG : FlowGuarantee w (f w) := by
    obtain ⟨ho, hr⟩ := hf w
    refine ⟨fun id r h => ⟨r, by rw [hr, h], .inl rfl⟩,
      fun id o h => ⟨o, by rw [ho, h], rfl, fun hs _ => hs⟩, fun id h => .inl ?_, fun hw => ?_⟩
    · obtain ⟨r, h, hc⟩ := h
      exact ⟨r, by rw [← h, hr], hc⟩
    · refine ⟨fun id o h => ?_, fun id o h hu => ?_⟩ <;> rw [ho] at h <;> rw [hr]
      · exact hw.linked id o h
      · exact hw.undone id o h hu
  rw [Sync.wp_modify]
  exact ⟨hG, hP _ _ hw hG⟩

theorem seg_record (hP : Stable FlowGuarantee P) (e : PortEvent) :
    Seg P (record e) fun _ => P := seg_modify hP fun _ => ⟨rfl, rfl⟩

theorem seg_derefOrder {id : String} :
    Seg P (derefOrder id) fun o w => P w ∧ w.orders.get id = some o := by
  refine Within.of_unchanged flow_refl fun w hw r w' h => ?_
  simp only [derefOrder, Option.map_eq_some_iff, Prod.mk.injEq] at h
  obtain ⟨o, ho, rfl, rfl⟩ := h
  exact ⟨rfl, hw, ho⟩

theorem seg_derefReservation {id : String} :
    Seg P (derefReservation id) fun r w => P w ∧ w.reservations.get id = some r := by
  refine Within.of_unchanged flow_refl fun w hw r w' h => ?_
  simp only [derefReservation, Option.map_eq_some_iff, Prod.mk.injEq] at h
  obtain ⟨r, hr, rfl, rfl⟩ := h
  exact ⟨rfl, hw, hr⟩

theorem Seg.weaken {P' : World → Prop} {s : Segment α} {K K' : α → World → Prop} (h : Seg P s K)
    (hP : ∀ w, P' w → P w) (hK : ∀ a w, K a w → K' a w) : Seg P' s K' := by
  refine Within.mono h hP ?_
  rintro (e | a) w hr
  · exact hr
  · exact hK a w hr

end Segments

/-! ## Calls -/

/-- The call keeps the guarantee, whatever the others do within it, and returns in `A`. -/
abbrev FlowTo {α : Type} (A : α → World → Prop) (p : Flow α) (w : World) : Prop :=
  Safe FlowGuarantee FlowGuarantee (post A fun _ => World.Sound) p w

abbrev FlowSafe {α : Type} (p : Flow α) (w : World) : Prop := FlowTo (fun _ => World.Sound) p w

section Calls

variable {P : World → Prop} {α β : Type} {A : α → World → Prop} {w : World}

theorem flow_await {s : Segment β} {K : β → World → Prop} {f : β → Flow α}
    (hP : Stable FlowGuarantee P) (hK : ∀ b, Stable FlowGuarantee (K b)) (hs : Seg P s K) (hw : P w)
    (hf : ∀ b w', K b w' → FlowTo A (f b) w') : FlowTo A (Async.await s >>= f) w :=
  Safe.of_within hP hK (fun _ => stable_sound) hs hw hf fun _ _ h => h

theorem flow_last {s : Segment α} (hP : Stable FlowGuarantee P)
    (hA : ∀ a, Stable FlowGuarantee (A a)) (hs : Seg P s A) (hw : P w) :
    FlowTo A (Async.await s) w := by
  refine Safe.await P hP hw ?_ fun w r w' hw hr => hs w hw r w' hr
  rintro (e | a)
  · exact stable_sound
  · exact hA a

theorem flow_return {a : α} (hA : Stable FlowGuarantee (A a)) (h : A a w) :
    FlowTo A (pure a : Flow α) w := Safe.pure hA h

theorem flow_pure {a : α} (h : w.Sound) : FlowSafe (pure a : Flow α) w := flow_return stable_sound h

theorem flow_throw {e : WorkflowError} (h : w.Sound) : FlowTo A (throw e : Flow α) w :=
  Safe.throw (Q := post A fun _ => World.Sound) stable_sound h

/-- Look something up, and go on with what was found. -/
theorem flow_find {find : World → Option β} {text id : String} {K : β → World → Prop}
    {f : β → Flow α} (hP : Stable FlowGuarantee P) (hl : ∀ w, P w → w.Sound)
    (hK : ∀ b, Stable FlowGuarantee (K b)) (hfind : ∀ w b, P w → find w = some b → K b w)
    (hw : P w) (hf : ∀ b w', K b w' → FlowTo A (f b) w') :
    FlowTo A (do
      let found ← Async.await (Sync.read find)
      let b ← orNotFound text id found
      f b) w := by
  refine flow_await (K := fun found w => w.Sound ∧ ∀ b, found = some b → K b w) hP ?_ ?_ hw ?_
  · exact fun found w w' h hG => ⟨hG.sound h.1, fun b hb => hK b w w' (h.2 b hb) hG⟩
  · exact Within.read flow_refl fun w hw => ⟨hl w hw, fun b hb => hfind w b hw hb⟩
  · rintro (_ | b) w' h
    · exact flow_throw h.1
    · exact hf b w' (h.2 b rfl)

theorem owns_sound {oid rid : String} (w : World) (h : Owns oid rid w) : w.Sound := h.1

theorem gone_sound {oid : String} (w : World) (h : Gone oid w) : w.Sound := h.1

/-- The order a call starts from is stored, with its reservation's id. -/
theorem flow_findOrder {text id : String} {f : Order → Flow α} (hw : w.Sound)
    (hf : ∀ o w', Owns id o.reservationId w' → FlowTo A (f o) w') :
    FlowTo A (do
      let found ← Async.await (Sync.read (·.orders.get id))
      let o ← orNotFound text id found
      f o) w :=
  flow_find stable_sound (fun _ h => h) (K := fun o => Owns id o.reservationId)
    (fun o => stable_owns id o.reservationId) (fun _ o hl ho => ⟨hl, o, ho, rfl⟩) hw hf

theorem seg_releaseHold {oid rid : String} {r : Reservation} (hrid : r.id = rid) :
    Seg (Owns oid rid) (releaseHold (some r)) fun _ => Gone oid := by
  subst hrid
  refine Seg.bind seg_derefReservation fun r₁ => ?_
  split_ifs with hs
  · -- still held: cancel it
    refine Seg.bind (K := fun _ => Gone oid) ?_ fun _ =>
      Seg.bind (seg_reservationRepoSave (stable_gone oid) gone_sound r.id) fun _ =>
        Seg.pure fun _ h => h
    rintro w ⟨⟨hl, o, ho, hrid⟩, -⟩
    refine wp_mutateReservation fun r₂ hr₂ hid => ?_
    rcases hc : r₂.cancel with e | r'
    · exact ⟨flow_refl w, hl⟩
    · obtain ⟨hopen, hr'⟩ := Reservation.cancel_ok hc
      have hm : r₂.Moves r' := .inr ⟨hopen, _, hr'⟩
      have hst : r'.status = .cancelled := by rw [hr']
      have hG : FlowGuarantee w (w.saveReservation r') :=
        flow_saveReservation (by rw [hid, hr₂]) hm fun h => by simp [hst] at h
      refine ⟨hG, hG.sound hl, o, ho, r', ?_, .inl hst⟩
      rw [hrid, ← hid, ← hm.id]
      exact Repository.get_save_self _ r'
  · refine Seg.pure ?_
    rintro w ⟨⟨hl, o, ho, hrid⟩, hr₁⟩
    refine ⟨hl, o, ho, r₁, hrid ▸ hr₁, ?_⟩
    by_contra hno
    exact hs (not_or.1 hno)

theorem seg_requestRefund (env : CompensationEnv) (oid : String) (x : Option String)
    (reason : CompensationReason) :
    Seg (Gone oid) (requestRefund env oid x reason) fun requested w =>
      Gone oid w ∧ ∀ n q, requested = some (n, q) → q.orderId = oid := by
  have hG := stable_gone oid
  refine Seg.bind seg_derefOrder fun o => ?_
  rcases o.refundTarget x with _ | t
  · have hcancel : ∀ o o' : Order, o.cancel = .ok o' →
        o'.id = o.id ∧ o'.reservationId = o.reservationId := by
      intro o o' h
      obtain ⟨-, rfl⟩ := Order.cancel_ok h
      exact ⟨rfl, rfl⟩
    refine Seg.bind ((seg_mutateOrder_gone hcancel).weaken (fun _ h => h.1) fun _ _ h => h)
      fun _ => ?_
    exact Seg.bind (seg_orderRepoSave hG gone_sound oid) fun _ =>
      Seg.pure fun w h => ⟨h, by simp⟩
  · refine Seg.bind (K := fun _ w => Gone oid w ∧ o.id = oid) ?_ fun _ => Seg.pure
      fun w h => ⟨h.1, ?_⟩
    · intro w hw
      have hid : o.id = oid := w.orders.get_key hw.2
      refine Sync.wp_mono (seg_record hG _ w hw.1) ?_
      rintro (e | u) w' ⟨h1, h2⟩
      · exact ⟨h1, h2⟩
      · exact ⟨h1, h2, hid⟩
    · intro n q hq
      simp only [Option.some.injEq, Prod.mk.injEq] at hq
      rw [← hq.2]
      exact h.2

theorem seg_settleRefund (env : CompensationEnv) (n : ℕ) (request : RefundRequest) :
    Seg (Gone request.orderId) (settleRefund env n request) fun _ => Gone request.orderId := by
  have hG := stable_gone request.orderId
  refine Seg.bind (K := fun _ => Gone request.orderId) (Within.of_unchanged flow_refl ?_)
    fun res => ?_
  · intro w hw
    rw [Sync.wp_ofExcept]
    rcases env.refund with e | res
    · exact ⟨rfl, hw.1⟩
    · exact ⟨rfl, hw⟩
  refine Seg.bind (seg_record hG _) fun _ => ?_
  have hsettle : ∀ (a : CompensationAttempt) (f : Order → Order) (answer : CompensationResult),
      (∀ o, (f o).id = o.id ∧ (f o).reservationId = o.reservationId) →
      Seg (Gone request.orderId) (do
        mutateOrder request.orderId fun o => .ok (o.recordCompensationAttempt a)
        mutateOrder request.orderId fun o => .ok (f o)
        orderRepoSave request.orderId
        pure answer) fun _ => Gone request.orderId := by
    intro a f answer hf
    refine Seg.bind (seg_mutateOrder_gone fun o o' h => ?_) fun _ => ?_
    · rw [← Except.ok.inj h]
      exact ⟨rfl, rfl⟩
    refine Seg.bind (seg_mutateOrder_gone fun o o' h => ?_) fun _ => ?_
    · rw [← Except.ok.inj h]
      exact hf o
    exact Seg.bind (seg_orderRepoSave hG gone_sound _) fun _ => Seg.pure fun _ h => h
  rcases res with ⟨_ | _ | _, t, m⟩
  · exact hsettle _ (·.markCompensated t) _ fun _ => ⟨rfl, rfl⟩
  · exact hsettle _ (·.markCompensationPending) _ fun _ => ⟨rfl, rfl⟩
  · exact hsettle _ (·.markCompensationPending) _ fun _ => ⟨rfl, rfl⟩

theorem seg_releaseThenRequest (env : CompensationEnv) (oid : String) (x : Option String)
    (reason : CompensationReason) {rid : String} {r : Reservation} (hrid : r.id = rid) :
    Seg (Owns oid rid) (releaseThenRequest env oid x reason (some r)) fun requested w =>
      Gone oid w ∧ ∀ n q, requested = some (some (n, q)) → q.orderId = oid := by
  refine Seg.bind (seg_releaseHold hrid) fun released => ?_
  split_ifs
  · exact Seg.pure fun w h => ⟨h, by simp⟩
  · refine Seg.bind (seg_requestRefund env oid x reason) fun requested => Seg.pure
      fun w h => ⟨h.1, ?_⟩
    intro n q hq
    exact h.2 n q (Option.some.inj hq)

/-- What `lookUpHold` finds: an order already refunded, or its reservation. -/
def LookedUp (oid rid : String) : CompensationResult ⊕ Option Reservation → World → Prop
  | .inl _, w => Gone oid w
  | .inr res, w => Owns oid rid w ∧ ∃ r, res = some r ∧ r.id = rid

theorem stable_lookedUp (oid rid : String) (found : CompensationResult ⊕ Option Reservation) :
    Stable FlowGuarantee (LookedUp oid rid found) := by
  cases found with
  | inl answer => exact stable_gone oid
  | inr res => exact (stable_owns oid rid).and (Stable.const _)

theorem seg_lookUpHold (oid rid : String) :
    Seg (Owns oid rid) (lookUpHold oid rid) (LookedUp oid rid) := by
  unfold lookUpHold
  refine Seg.bind seg_derefOrder fun o => ?_
  split_ifs with hs
  · refine Seg.pure ?_
    rintro w ⟨⟨hw, -⟩, ho⟩
    exact ⟨hw, o, ho, hw.undone oid o ho (.inr (.inr hs))⟩
  · refine Seg.bind (K := fun res w => Owns oid rid w ∧ ∃ r : Reservation,
      res = some r ∧ r.id = rid)
      (Within.read flow_refl ?_) fun res => Seg.pure fun _ h => h
    rintro w ⟨⟨hw, o₂, ho₂, hrid⟩, -⟩
    obtain ⟨r, hr⟩ := hw.linked oid o₂ ho₂
    rw [hrid] at hr
    exact ⟨⟨hw, o₂, ho₂, hrid⟩, r, hr, w.reservations.get_key hr⟩

theorem stable_requested (oid : String) (p : Prop) :
    Stable FlowGuarantee fun w => Gone oid w ∧ p := (stable_gone oid).and (Stable.const p)

/-- A compensation that returns has found the hold released, or released it. -/
theorem flow_compensateOrder (env : CompensationEnv) (oid : String) (x : Option String)
    (reason : CompensationReason) (hw : w.Sound) :
    FlowTo (fun _ => Gone oid) (compensateOrder env oid x reason) w := by
  unfold compensateOrder
  refine flow_findOrder hw fun o w ho => ?_
  refine flow_await (stable_owns oid o.reservationId) (stable_lookedUp oid o.reservationId)
    (seg_lookUpHold oid o.reservationId) ho ?_
  rintro (answer | res) w hfound
  · exact flow_return (stable_gone oid) hfound
  obtain ⟨ho, r, rfl, hrid⟩ := hfound
  refine flow_await (K := fun requested w => Gone oid w
    ∧ ∀ n q, requested = some (some (n, q)) → q.orderId = oid)
    (stable_owns oid o.reservationId) (fun _ => stable_requested oid _)
    (seg_releaseThenRequest env oid x reason hrid) ho ?_
  -- from the request on, it does not matter in which segment it was made
  have hrest : ∀ (requested : Option (ℕ × RefundRequest)) (w : World),
      (Gone oid w ∧ ∀ n q, requested = some (n, q) → q.orderId = oid) →
      FlowTo (fun _ => Gone oid) (settleRequested env requested) w := by
    rintro (_ | ⟨n, q⟩) w ⟨hg, hq⟩
    · exact flow_return (stable_gone oid) hg
    · obtain rfl := hq n q rfl
      exact flow_last (stable_gone q.orderId) (fun _ => stable_gone q.orderId)
        (seg_settleRefund env n q) hg
  rintro (_ | requested) w ⟨hg, hq⟩
  · exact flow_await (stable_gone oid) (fun _ => stable_requested oid _)
      (seg_requestRefund env oid x reason) hg hrest
  · exact hrest requested w ⟨hg, fun n q h => hq n q (by rw [h])⟩

theorem flow_retryCompensation (env : CompensationEnv) (oid : String) (hw : w.Sound) :
    FlowTo (fun _ => Gone oid) (retryCompensation env oid) w := by
  unfold retryCompensation
  refine flow_findOrder hw fun o w ho => ?_
  refine flow_await (K := fun _ => World.Sound) (stable_owns oid o.reservationId)
    (fun _ => stable_sound) ?_ ho fun _ w hl => flow_compensateOrder env oid none .retry hl
  unfold checkRetry
  refine Seg.bind seg_derefOrder fun o₁ => ?_
  split_ifs
  · exact Seg.throw fun w h => h.1.1
  · exact Seg.pure fun w h => h.1.1

theorem seg_startCheckout (env : CheckoutEnv) (rid : String) :
    Seg World.Sound (startCheckout env rid) fun _ => World.Sound := by
  have hl : ∀ w : World, w.Sound → w.Sound := fun _ h => h
  unfold startCheckout
  refine Seg.bind seg_derefReservation fun r => ?_
  split_ifs
  · exact Seg.throw fun w h => h.1
  · refine Seg.bind (K := fun _ => World.Sound) ?_ fun _ =>
      seg_reservationRepoSave stable_sound hl rid
    refine (seg_mutateReservation stable_sound hl fun r r' h => ?_).weaken (fun _ h => h.1)
      fun _ _ h => h
    unfold Reservation.startPayment Reservation.unlessExpired at h
    split_ifs at h with h1 h2
    simp only [Except.ok.injEq] at h
    subst h
    exact ⟨.inr ⟨.inl (not_not.1 h1), _, rfl⟩, by simp⟩

/-- A new order of a stored reservation. -/
theorem flow_newOrder {id : Uuid} {r : Reservation} (amount : Money) (hw : w.Sound)
    (hr : w.reservations.get r.id = some r) (hfresh : w.orders.get id.val = none) :
    FlowGuarantee w (w.saveOrder (.ofReservation id r amount)) := by
  set o := Order.ofReservation id r amount
  refine ⟨fun _ r₁ hr₁ => ⟨r₁, hr₁, .inl rfl⟩, fun id₁ o₁ ho₁ => ⟨o₁, ?_, rfl, fun h _ => h⟩,
    fun _ h => .inl h, fun _ => ⟨fun id₁ o₁ ho₁ => ?_, fun id₁ o₁ ho₁ hu => ?_⟩⟩
  · rw [← ho₁]
    refine Repository.get_save_of_ne ?_
    rintro rfl
    have ho : w.orders.get id.val = some o₁ := ho₁
    simp [hfresh] at ho
  · change (w.orders.save o).get id₁ = some o₁ at ho₁
    rw [Repository.get_save] at ho₁
    split_ifs at ho₁
    · exact ⟨r, by rw [← Option.some.inj ho₁, ← hr]; rfl⟩
    · exact hw.linked id₁ o₁ ho₁
  · change (w.orders.save o).get id₁ = some o₁ at ho₁
    rw [Repository.get_save] at ho₁
    split_ifs at ho₁
    · rw [← Option.some.inj ho₁] at hu
      simp [Order.Undone, o, Order.ofReservation] at hu
    · exact hw.undone id₁ o₁ ho₁ hu

theorem seg_createOrder (env : CheckoutEnv) (command : InitiateCheckoutCommand) :
    Seg World.Sound (createOrder env command) fun _ => World.Sound := by
  unfold createOrder
  refine Seg.bind seg_derefReservation fun r => ?_
  refine Seg.bind (K := fun _ w => (w.Sound ∧ w.reservations.get command.reservationId = some r)
    ∧ w.orders.get env.orderId.val = none) (Within.of_unchanged flow_refl fun w h => ?_)
      fun _ => ?_
  · rw [Sync.wp_waitFor]
    exact fun hfresh => ⟨rfl, h, hfresh⟩
  refine Seg.bind (K := fun _ => World.Sound) ?_ fun _ => Seg.pure fun _ h => h
  rintro w ⟨⟨hw, hr⟩, hfresh⟩
  rw [Sync.wp_modify]
  have hid : r.id = command.reservationId := w.reservations.get_key hr
  have hG := flow_newOrder command.totalAmount hw (hid ▸ hr) hfresh
  exact ⟨hG, hG.sound hw⟩

theorem flow_initiateCheckout (env : CheckoutEnv) (command : InitiateCheckoutCommand)
    (hw : w.Sound) : FlowSafe (initiateCheckout env command) w := by
  unfold initiateCheckout
  refine flow_find (K := fun _ => World.Sound) stable_sound (fun _ h => h) (fun _ => stable_sound)
    (fun _ _ h _ => h) hw fun r w hw => ?_
  exact flow_await stable_sound (fun _ => stable_sound)
    (seg_startCheckout env command.reservationId) hw fun _ w hw =>
      flow_last stable_sound (fun _ => stable_sound) (seg_createOrder env command) hw

/-! ### Payment -/

theorem keepsConfirmed_attempt (a : PaymentAttempt) :
    KeepsConfirmed fun o => .ok (o.recordPaymentAttempt a) := by
  intro o o' h
  obtain rfl := Except.ok.inj h
  exact ⟨rfl, rfl, fun hs => hs, fun hu => hu⟩

theorem keepsConfirmed_retryPayment : KeepsConfirmed (·.retryPayment) := by
  intro o o' h
  simp only [Order.retryPayment] at h
  split_ifs at h with hs
  simp only [Except.ok.injEq] at h
  subst h
  exact ⟨rfl, rfl, fun hc => by simp [hc] at hs, by simp [Order.Undone]⟩

theorem keepsConfirmed_markPaymentDeclined : KeepsConfirmed (·.markPaymentDeclined) := by
  intro o o' h
  obtain ⟨hs, rfl⟩ := Order.markPaymentDeclined_ok h
  exact ⟨rfl, rfl, fun hc => by simp [hc] at hs, by simp [Order.Undone]⟩

/-- The payment was taken and could not be fulfilled. -/
def ProcessPaymentResult.Compensated (r : ProcessPaymentResult) : Prop :=
  ∃ cause outcome, r.message = some (.fulfillmentFailed cause outcome)

/-- What a payment's answer says of the hold of its order. -/
def PaymentAnswered (oid : String) (r : ProcessPaymentResult) (w : World) : Prop :=
  w.Sound ∧ (r.Compensated → Gone oid w)

theorem stable_paymentAnswered (oid : String) (r : ProcessPaymentResult) :
    Stable FlowGuarantee (PaymentAnswered oid r) := fun w w' h hG =>
  ⟨hG.sound h.1, fun hr => stable_gone oid w w' (h.2 hr) hG⟩

/-- The order was not compensated. -/
theorem flow_answer {oid : String} {r : ProcessPaymentResult} (hw : w.Sound)
    (hr : ¬ r.Compensated) : FlowTo (PaymentAnswered oid) (pure r : Flow ProcessPaymentResult) w :=
  flow_return (stable_paymentAnswered oid r) ⟨hw, fun h => absurd h hr⟩

/-- What `startCharge` comes to: an answer from the order's records, or a charge for the order of
the command. -/
def ChargeStarted (oid rid : String) : ProcessPaymentResult ⊕ ℕ × ChargeRequest → World → Prop
  | .inl answer, w => w.Sound ∧ ¬ answer.Compensated
  | .inr (_, request), w => Owns oid rid w ∧ request.orderId = oid

theorem stable_chargeStarted (oid rid : String)
    (started : ProcessPaymentResult ⊕ ℕ × ChargeRequest) :
    Stable FlowGuarantee (ChargeStarted oid rid started) := by
  cases started with
  | inl answer => exact stable_sound.and (Stable.const _)
  | inr charge => exact (stable_owns oid rid).and (Stable.const _)

theorem seg_startCharge (env : PaymentEnv) (command : ProcessPaymentCommand) {rid : String} :
    Seg (Owns command.orderId rid) (startCharge env command)
      (ChargeStarted command.orderId rid) := by
  have hP := stable_owns command.orderId rid
  unfold startCharge
  refine Seg.bind seg_derefOrder fun o => ?_
  split
  · exact Seg.pure fun w h => ⟨h.1.1, by simp [ProcessPaymentResult.Compensated]⟩
  have hstart : Seg (fun w => Owns command.orderId rid w ∧ o.id = command.orderId) (do
      let request : ChargeRequest := ⟨env.paymentId, o.id, o.totalAmount,
        command.paymentMethodToken, command.idempotencyKey, command.customerEmail⟩
      record (.chargeRequested request)
      pure (.inr (o.paymentAttempts.length + 1, request)) :
        Segment (ProcessPaymentResult ⊕ ℕ × ChargeRequest)) (ChargeStarted command.orderId rid) :=
    Seg.bind (seg_record (hP.and (Stable.const _)) _) fun _ => Seg.pure fun _ h => h
  split_ifs
  · exact Seg.pure fun w h => ⟨h.1.1, by simp [ProcessPaymentResult.Compensated]⟩
  · refine Seg.bind (K := fun _ w => Owns command.orderId rid w ∧ o.id = command.orderId) ?_
      fun _ => hstart
    intro w hw
    have hid : o.id = command.orderId := w.orders.get_key hw.2
    refine Sync.wp_mono (seg_mutateOrder hP owns_sound keepsConfirmed_retryPayment w hw.1) ?_
    rintro (e | u) w' ⟨h1, h2⟩
    · exact ⟨h1, h2⟩
    · exact ⟨h1, h2, hid⟩
  · exact hstart.weaken (fun w h => ⟨h.1, w.orders.get_key h.2⟩) fun _ _ h => h

theorem seg_recordCharge (hP : Stable FlowGuarantee P) (hl : ∀ w, P w → w.Sound)
    (env : PaymentEnv) (n : ℕ) (request : ChargeRequest) (result : ChargeResult)
    (st : PaymentStatus) (t reason : Option String) :
    Seg P (recordCharge env n request result st t reason) fun _ => P :=
  Seg.bind (seg_record hP _) fun _ => seg_mutateOrder hP hl (keepsConfirmed_attempt _)

/-- The order is confirmed, and in the same segment its reservation. -/
theorem seg_confirmOrder {oid rid : String} (t : Option String) (at' : Time) :
    Seg (Owns oid rid) (mutateOrder oid fun o => (·.2) <$> o.confirm t at') fun _ w =>
      Owns oid rid w ∧ w.HasConfirmed rid := by
  intro w hw
  refine wp_mutateOrder fun o ho hid => ?_
  obtain ⟨hl, o₁, ho₁, hrid⟩ := id hw
  obtain rfl : o = o₁ := by simpa [ho] using ho₁
  have hconf : ∀ b o', o.confirm t at' = .ok (b, o') →
      o'.id = o.id ∧ o'.reservationId = o.reservationId ∧ o'.status = .confirmed := by
    intro b o' h
    unfold Order.confirm at h
    split_ifs at h with h1 h2
    · obtain ⟨-, rfl⟩ := Prod.mk.inj (Except.ok.inj h)
      exact ⟨rfl, rfl, h1⟩
    · obtain ⟨-, rfl⟩ := Prod.mk.inj (Except.ok.inj h)
      exact ⟨rfl, rfl, rfl⟩
  rcases hc : o.confirm t at' with e | ⟨b, o'⟩
  · exact ⟨flow_refl w, hl⟩
  · obtain ⟨h1, h2, h3⟩ := hconf b o' hc
    have hG : FlowGuarantee w (w.saveOrder o') :=
      flow_saveOrder (hid ▸ ho) h1 h2 (fun _ _ => h3) fun hu => by simp [Order.Undone, h3] at hu
    refine ⟨hG, stable_owns oid rid _ _ hw hG, oid, o', ?_, h2.trans hrid, h3⟩
    rw [← hid, ← h1]
    exact Repository.get_save_self _ o'

theorem seg_confirmReservation {oid rid : String} (now later : Time) :
    Seg (fun w => Owns oid rid w ∧ w.HasConfirmed rid)
      (mutateReservation rid (·.confirm now later)) fun _ => Owns oid rid := by
  rintro w ⟨hw, hc⟩
  refine wp_mutateReservation fun r hr hid => ?_
  rcases he : r.confirm now later with e | r'
  · exact ⟨flow_refl w, hw.1⟩
  · obtain ⟨hopen, -, rfl⟩ := Reservation.confirm_ok he
    have hG : FlowGuarantee w (w.saveReservation { r with status := .confirmed }) :=
      flow_saveReservation (hid ▸ hr) (.inr ⟨hopen, _, rfl⟩) fun _ => .inr (hid ▸ hc)
    exact ⟨hG, stable_owns oid rid _ _ hw hG⟩

theorem seg_confirmBoth (env : PaymentEnv) {oid rid : String} (t : Option String) :
    Seg (Owns oid rid) (confirmBoth env oid rid t) fun _ => Owns oid rid := by
  have hP := stable_owns oid rid
  unfold confirmBoth
  refine Seg.bind (K := fun _ => Owns oid rid) (Within.of_unchanged flow_refl ?_) fun _ => ?_
  · intro w hw
    rw [Sync.wp_ofExcept]
    rcases env.issue with e | u
    · exact ⟨rfl, hw.1⟩
    · exact ⟨rfl, hw⟩
  refine Seg.bind (seg_record hP _) fun _ => Seg.bind (seg_confirmOrder t env.confirmAt) fun _ => ?_
  exact Seg.bind (seg_confirmReservation env.checkAt env.later) fun _ =>
    seg_reservationRepoSave hP owns_sound rid

theorem flow_fulfil (env : PaymentEnv) {rid : String} (n : ℕ) (request : ChargeRequest)
    (result : ChargeResult) (hw : Owns request.orderId rid w) :
    FlowTo (PaymentAnswered request.orderId) (fulfil env rid n request result) w := by
  have hP := stable_owns request.orderId rid
  unfold fulfil
  refine flow_await hP (fun _ => hP) (Seg.bind (seg_recordCharge hP owns_sound env n request result
    _ _ _) fun _ => seg_record hP _) hw fun _ w hw => ?_
  refine Safe.tryCatch (flow_await hP (fun _ => hP) (seg_confirmBoth env _) hw fun _ w hw => ?_)
    (fun _ _ h => h) fun cause w hl => ?_
  · exact flow_await hP (fun _ => hP) (seg_orderRepoSave hP owns_sound _) hw
      fun _ w hw => flow_answer hw.1 (by simp [ProcessPaymentResult.Compensated])
  · unfold postPaymentFailure
    refine flow_await stable_sound (fun _ => stable_sound)
      (seg_orderRepoSave stable_sound (fun _ h => h) _) hl fun _ w hl => ?_
    exact Safe.bind (flow_compensateOrder _ _ _ _ hl) (fun _ _ h =>
      flow_return (stable_paymentAnswered _ _) ⟨h.1, fun _ => h⟩) fun _ _ h => h

theorem seg_declineOrder {oid rid : String} (now : Time) {tail : Segment Unit}
    (hP : Stable FlowGuarantee P) (hl : ∀ w, P w → w.Sound) (htail : Seg P tail fun _ => P) :
    Seg P (declineOrder oid rid now tail) fun _ => P := by
  unfold declineOrder
  refine Seg.bind (seg_mutateOrder hP hl keepsConfirmed_markPaymentDeclined) fun _ => ?_
  refine Seg.bind seg_derefReservation fun r => ?_
  split_ifs
  · refine Seg.bind (K := fun _ => P) ?_ fun _ =>
      Seg.bind (seg_reservationRepoSave hP hl rid) fun _ => Seg.pure fun _ h => h
    refine (seg_mutateReservation hP hl fun r r' h => ?_).weaken (fun _ h => h.1) fun _ _ h => h
    obtain ⟨hs, rfl⟩ := Reservation.revertPaymentDecline_ok h
    exact ⟨.inr ⟨.inr hs, _, rfl⟩, by simp⟩
  · exact Seg.bind (htail.weaken (fun _ h => h.1) fun _ _ h => h) fun _ => Seg.pure fun _ h => h

theorem flow_declineCharge (env : PaymentEnv) (rid : String) (n : ℕ) (request : ChargeRequest)
    (result : ChargeResult) (st : PaymentStatus) (reason msg : String) (hw : w.Sound) :
    FlowTo (PaymentAnswered request.orderId)
      (declineCharge env rid n request result st reason msg) w := by
  have hl : ∀ w : World, w.Sound → w.Sound := fun _ h => h
  have hsave := seg_orderRepoSave stable_sound hl request.orderId
  unfold declineCharge
  refine flow_await stable_sound (fun _ => stable_sound) (Seg.bind (seg_recordCharge stable_sound
    hl env n request result _ _ _) fun _ => seg_declineOrder env.checkAt stable_sound hl hsave) hw
    fun reverted w hw => ?_
  split_ifs
  · exact flow_await stable_sound (fun _ => stable_sound) hsave hw
      fun _ w hw => flow_answer hw (by simp [ProcessPaymentResult.Compensated])
  · exact flow_answer hw (by simp [ProcessPaymentResult.Compensated])

theorem flow_processPayment (env : PaymentEnv) (command : ProcessPaymentCommand) (hw : w.Sound) :
    FlowTo (PaymentAnswered command.orderId) (processPayment env command) w := by
  unfold processPayment
  refine flow_findOrder hw fun o w ho => ?_
  have hP := stable_owns command.orderId o.reservationId
  refine flow_find (K := fun r w => Owns command.orderId o.reservationId w ∧ r.id = o.reservationId)
    hP owns_sound (fun r => hP.and (Stable.const _))
    (fun w r h hr => ⟨h, w.reservations.get_key hr⟩) ho fun r w hr => ?_
  obtain ⟨ho, hrid⟩ := hr
  refine flow_await hP (stable_chargeStarted _ _) (seg_startCharge env command) ho ?_
  rintro (answer | ⟨n, q⟩) w hstarted
  · exact flow_answer hstarted.1 hstarted.2
  obtain ⟨ho, hq⟩ := hstarted
  rcases env.charge with e | result
  · exact flow_last hP (stable_paymentAnswered _) (Seg.throw owns_sound) ho
  rw [← hq]
  rw [← hq, ← hrid] at ho
  rcases result with ⟨_ | _ | _ | _, t, m⟩
  · exact flow_fulfil env n q _ ho
  · exact flow_declineCharge env _ _ _ _ _ _ _ ho.1
  · have hl : ∀ w : World, w.Sound → w.Sound := fun _ h => h
    refine flow_await stable_sound (fun _ => stable_sound) (Seg.bind (seg_recordCharge
      stable_sound hl env n q _ _ _ _) fun _ => seg_orderRepoSave stable_sound hl _) ho.1
      fun _ w hw => flow_answer hw (by simp [ProcessPaymentResult.Compensated])
  · exact flow_declineCharge env _ _ _ _ _ _ _ ho.1

/-! ### Callbacks -/

theorem seg_addEvent (hP : Stable FlowGuarantee P) (self : ℕ) (eventId : String) :
    Seg P (addEvent self eventId) fun _ => P := seg_modify hP fun _ => ⟨rfl, rfl⟩

/-- A late payment marks an order that is not CONFIRMED. -/
theorem seg_markRefundRequired {oid rid : String} {o : Order} (t : String)
    (hs : o.status ≠ .confirmed) :
    Seg (fun w => Owns oid rid w ∧ w.orders.get oid = some o)
      (mutateOrder oid fun o => .ok (o.markRefundRequired t)) fun _ => Owns oid rid := by
  rintro w ⟨hw, ho⟩
  refine wp_mutateOrder fun o₁ ho₁ hid => ?_
  obtain rfl : o = o₁ := by simpa [ho] using ho₁
  rw [← hid] at ho
  have hG : FlowGuarantee w (w.saveOrder (o.markRefundRequired t)) :=
    flow_saveOrder ho rfl rfl (fun hc => absurd hc hs) fun hu => by
      simp [Order.Undone, Order.markRefundRequired] at hu
  exact ⟨hG, stable_owns oid rid _ _ hw hG⟩

theorem seg_applyWebhook (env : WebhookEnv) (self : ℕ) (payload : PaymentWebhookPayload)
    {rid : String} :
    Seg (Owns payload.orderId rid) (applyWebhook env self payload rid)
      fun _ => Owns payload.orderId rid := by
  have hP := stable_owns payload.orderId rid
  have hevent := seg_addEvent hP self payload.eventId
  have hsave := seg_orderRepoSave hP owns_sound payload.orderId
  unfold applyWebhook
  refine Seg.bind seg_derefOrder fun o => ?_
  refine Seg.bind seg_derefReservation fun r => ?_
  split_ifs with hs hpaid hlate
  · exact Seg.bind (hevent.weaken (fun _ h => h.1.1) fun _ _ h => h) fun _ => Seg.pure fun _ h => h
  · refine Seg.bind ((seg_markRefundRequired _ hs).weaken (fun _ h => h.1) fun _ _ h => h)
      fun _ => ?_
    exact Seg.bind hevent fun _ => Seg.bind hsave fun _ => Seg.pure fun _ h => h
  · refine Seg.bind ((seg_confirmOrder _ _).weaken (fun _ h => h.1.1) fun _ _ h => h) fun _ => ?_
    refine Seg.bind (seg_confirmReservation _ _) fun _ => Seg.bind hevent fun _ => ?_
    exact Seg.bind (seg_reservationRepoSave hP owns_sound rid) fun _ => Seg.pure fun _ h => h
  · refine Seg.bind (K := fun _ => Owns payload.orderId rid) ?_ fun _ => Seg.pure fun _ h => h
    exact (seg_declineOrder env.now hP owns_sound (Seg.bind hevent fun _ => hsave)).weaken
      (fun _ h => h.1.1) fun _ _ h => h

theorem seg_duplicateStatus (found : Option Order) :
    Seg World.Sound (duplicateStatus found) fun _ => World.Sound := by
  rcases found with _ | o
  · exact Seg.pure fun _ h => h
  · exact Seg.bind seg_derefOrder fun _ => Seg.pure fun _ h => h.1

theorem flow_handlePaymentWebhook (env : WebhookEnv) (self : ℕ) (payload : PaymentWebhookPayload)
    (hw : w.Sound) : FlowSafe (handlePaymentWebhook env self payload) w := by
  unfold handlePaymentWebhook
  refine flow_await (K := fun found w => w.Sound
    ∧ ∀ o, found.2 = some o → Owns payload.orderId o.reservationId w) stable_sound ?_
    (Within.read flow_refl fun w hw => ⟨hw, fun o ho => ⟨hw, o, ho, rfl⟩⟩) hw ?_
  · exact fun found w w' h hG => ⟨hG.sound h.1, fun o ho => stable_owns _ _ w w' (h.2 o ho) hG⟩
  rintro ⟨seen, found⟩ w ⟨hw, ho⟩
  cases seen with
  | true =>
    refine flow_await stable_sound (fun _ => stable_sound) (seg_duplicateStatus found) hw ?_
    exact fun _ w hw => flow_pure hw
  | false =>
    rcases found with _ | o
    · exact flow_throw hw
    have hP := stable_owns payload.orderId o.reservationId
    refine flow_find (K := fun r w => Owns payload.orderId o.reservationId w
      ∧ r.id = o.reservationId) hP owns_sound (fun r => hP.and (Stable.const _))
      (fun w r h hr => ⟨h, w.reservations.get_key hr⟩) (ho o rfl) fun r w hr => ?_
    obtain ⟨ho, hrid⟩ := hr
    rw [hrid]
    refine flow_await hP (fun _ => hP) (seg_applyWebhook env self payload) ho ?_
    rintro (_ | _ | _ | reverted) w hw
    · exact flow_pure hw.1
    · exact flow_pure hw.1
    · exact flow_await hP (fun _ => hP) (seg_orderRepoSave hP owns_sound _) hw
        fun _ w hw => flow_pure hw.1
    · cases reverted with
      | false => exact flow_pure hw.1
      | true => exact flow_await hP (fun _ => hP) (Seg.bind (seg_addEvent hP _ _) fun _ =>
          seg_orderRepoSave hP owns_sound _) hw fun _ w hw => flow_pure hw.1

/-! ### Any call -/

theorem flow_expire (now later : Time) (rid : String) (hw : w.Sound) :
    FlowSafe (Async.await (mutateReservation rid (·.expire now later))) w := by
  refine flow_last stable_sound (fun _ => stable_sound)
    (seg_mutateReservation stable_sound (fun _ h => h) fun r r' h => ?_) hw
  obtain ⟨hopen, -, rfl⟩ := Reservation.expire_ok h
  exact ⟨.inr ⟨hopen, _, rfl⟩, by simp⟩

/-- By this reply the call has compensated the order. -/
def Call.Compensated (oid : String) : Call → Reply → Prop
  | .compensateOrder _ orderId _ _, _ => orderId = oid
  | .retryCompensation _ orderId, _ => orderId = oid
  | .processPayment _ command, .payment r => command.orderId = oid ∧ r.Compensated
  | _, _ => False

/-- What the reply of a call says of the stores. -/
def Call.Answered (c : Call) (reply : Reply) (w : World) : Prop :=
  w.Sound ∧ ∀ oid, c.Compensated oid reply → Gone oid w

theorem stable_answered (c : Call) (reply : Reply) : Stable FlowGuarantee (c.Answered reply) :=
  fun w w' h hG => ⟨hG.sound h.1, fun oid hr => stable_gone oid w w' (h.2 oid hr) hG⟩

theorem flow_program (c : Call) (hw : w.Sound) : FlowTo c.Answered c.program w := by
  have hreply : ∀ {α : Type} {p : Flow α} {A : α → World → Prop} (f : α → Reply), FlowTo A p w →
      (∀ a w, A a w → c.Answered (f a) w) → FlowTo c.Answered (p >>= fun a => pure (f a)) w :=
    fun f hp hA => Safe.bind hp (fun a w h => flow_return (stable_answered c _) (hA a w h))
      fun _ _ h => h
  cases c with
  | initiateCheckout env command =>
    exact hreply _ (flow_initiateCheckout env command hw) fun _ w h => ⟨h, fun _ => False.elim⟩
  | processPayment env command =>
    refine hreply _ (flow_processPayment env command hw) fun r w h => ⟨h.1, ?_⟩
    rintro oid ⟨rfl, hr⟩
    exact h.2 hr
  | handlePaymentWebhook env self payload =>
    exact hreply _ (flow_handlePaymentWebhook env self payload hw) fun _ w h =>
      ⟨h, fun _ => False.elim⟩
  | compensateOrder env oid x reason =>
    exact hreply _ (flow_compensateOrder env oid x reason hw) fun _ w h =>
      ⟨h.1, by rintro _ rfl; exact h⟩
  | retryCompensation env oid =>
    exact hreply _ (flow_retryCompensation env oid hw) fun _ w h => ⟨h.1, by rintro _ rfl; exact h⟩
  | expire now later rid =>
    exact hreply (fun _ => Reply.expired) (flow_expire now later rid hw) fun _ w h =>
      ⟨h, fun _ => False.elim⟩

end Calls

/-! ## Runs -/

/-- Every sold seat has its order. -/
def World.SoldConfirmed (w : World) : Prop := ∀ rid, w.Sold rid → w.HasConfirmed rid

theorem stable_soldConfirmed : Stable FlowGuarantee World.SoldConfirmed := by
  intro w w' hw hG rid hsold
  rcases hG.sold rid hsold with hs | hc
  · obtain ⟨id, o, ho, hrid, hst⟩ := hw rid hs
    obtain ⟨o', ho', hrid', hst'⟩ := hG.confirmed_stays ho hrid hst hs
    exact ⟨id, o', ho', hrid', hst'⟩
  · exact hc

theorem World.Initial.sound {w : World} (h : w.Initial) : w.Sound := by
  refine ⟨fun id o ho => ?_, fun id o ho _ => ?_⟩ <;> rw [h.orders] at ho <;> cases ho

section Runs

variable {τ : Type} [DecidableEq τ]

/-- The calls, none of which has started. -/
def started (calls : τ → Call) (w : World) : Config τ World WorkflowError Reply :=
  ⟨w, fun i => (calls i).program⟩

omit [DecidableEq τ] in
theorem started_safe (calls : τ → Call) {w₀ : World} (h₀ : w₀.Sound) (i : τ) :
    FlowTo (calls i).Answered ((started calls w₀).thread i) (started calls w₀).world :=
  flow_program (calls i) h₀

/-- Any number of calls, interleaved in any way. Wherever a reservation is CONFIRMED there is a
stored order of it that is CONFIRMED, and from there on stays so. -/
theorem confirmed_reservation_keeps_order (calls : τ → Call) {w₀ : World} (h₀ : w₀.Initial)
    (hopen : ∀ rid, ¬ w₀.Sold rid) {c : Config τ World WorkflowError Reply}
    (hc : (started calls w₀).Reach c) (rid : String) (hsold : c.world.Sold rid) :
    ∃ id o, c.world.orders.get id = some o ∧ o.reservationId = rid ∧ o.status = .confirmed
      ∧ ∀ c', c.Reach c' → ∃ o', c'.world.orders.get id = some o' ∧ o'.reservationId = rid
        ∧ o'.status = .confirmed := by
  have hsafe := started_safe calls h₀.sound
  have hRG : ∀ i j : τ, i ≠ j → ∀ w w', FlowGuarantee w w' → FlowGuarantee w w' :=
    fun _ _ _ _ _ h => h
  have hinv : c.world.SoldConfirmed := Safe.invariant hRG hsafe hc (fun _ => stable_soldConfirmed)
    fun rid h => absurd h (hopen rid)
  obtain ⟨id, o, ho, hrid, hst⟩ := hinv rid hsold
  refine ⟨id, o, ho, hrid, hst, fun c' hc' => ?_⟩
  -- from here the order and the sold seat are kept together
  have hkeep : Stable FlowGuarantee fun w => w.Sold rid
      ∧ ∃ o, w.orders.get id = some o ∧ o.reservationId = rid ∧ o.status = .confirmed := by
    rintro w w' ⟨hs, o, ho, hrid, hst⟩ hG
    exact ⟨hG.sold_stays hs, hG.confirmed_stays ho hrid hst hs⟩
  exact (Safe.invariant hRG (Safe.reach hRG hsafe hc).2 hc' (fun _ => hkeep)
    ⟨hsold, o, ho, hrid, hst⟩).2

/-- Any number of calls, interleaved in any way. The hold of an order that was taken back is
released, and so is that of an order some call has answered to have compensated. -/
theorem undone_order_holds_no_seat (calls : τ → Call) {w₀ : World} (h₀ : w₀.Initial)
    {c : Config τ World WorkflowError Reply} (hc : (started calls w₀).Reach c) :
    (∀ id o, c.world.orders.get id = some o → o.Undone →
      ∃ r, c.world.reservations.get o.reservationId = some r
        ∧ (r.status = .cancelled ∨ r.status = .expired))
    ∧ ∀ i reply oid, (c.thread i).result = some (.ok reply) → (calls i).Compensated oid reply →
      ∃ o, c.world.orders.get oid = some o
        ∧ ∃ r, c.world.reservations.get o.reservationId = some r
          ∧ (r.status = .cancelled ∨ r.status = .expired) := by
  have hsafe := started_safe calls h₀.sound
  have hRG : ∀ i j : τ, i ≠ j → ∀ w w', FlowGuarantee w w' → FlowGuarantee w w' :=
    fun _ _ _ _ _ h => h
  constructor
  · exact (Safe.invariant hRG hsafe hc (fun _ => stable_sound) h₀.sound).undone
  · intro i reply oid hres hcomp
    have hanswered : (calls i).Answered reply c.world :=
      Safe.ended (Q := fun i => post (calls i).Answered fun _ => World.Sound) hRG hsafe hc hres
    exact (hanswered.2 oid hcomp).2

end Runs

/-- A checkout, the payment of its order, and a compensation of the same order. -/
def soldCalls : Fin 3 → Call
  | 0 => checkoutAt 1000 orderA
  | 1 => payAt 2000 "a" "k1" ⟨.success, some "t1", none⟩
  | 2 => .compensateOrder (refundAt 3000) "a" none .downstreamFailed

theorem heldWorld_not_sold (rid : String) : ¬ heldWorld.Sold rid := by
  rintro ⟨r, hr, hc⟩
  change (Repository.empty.save heldSeat).get rid = some r at hr
  rw [Repository.get_save] at hr
  split_ifs at hr
  · rw [← Option.some.inj hr] at hc
    cases hc
  · cases hr

/-- The compensation has found the order before it is confirmed, and goes on after. -/
theorem confirmed_reservation_keeps_order_sold :
    ∃ c, (started soldCalls heldWorld).runSchedule [0, 0, 0, 2, 1, 1, 1, 1, 1, 1, 2] = some c
      ∧ c.world.Sold "r1" ∧ ∃ id o, c.world.orders.get id = some o ∧ o.reservationId = "r1"
      ∧ o.status = .confirmed ∧ ∀ c', c.Reach c' → ∃ o', c'.world.orders.get id = some o'
        ∧ o'.reservationId = "r1" ∧ o'.status = .confirmed := by
  have hsome : ((started soldCalls heldWorld).runSchedule
    [0, 0, 0, 2, 1, 1, 1, 1, 1, 1, 2]).isSome := by decide
  have hc := Option.eq_some_of_isSome hsome
  have hsold : (Option.get _ hsome).world.Sold "r1" :=
    ⟨{ heldSeat with status := .confirmed }, rfl, rfl⟩
  exact ⟨_, hc, hsold, confirmed_reservation_keeps_order soldCalls heldWorld_initial
    heldWorld_not_sold (Config.reach_of_runSchedule _ hc) "r1" hsold⟩

/-- The compensation cancels the order while its charge is on the way; the payment comes back to
an order it cannot confirm, and compensates it too. -/
theorem undone_order_holds_no_seat_refunded :
    ∃ c, (started soldCalls heldWorld).runSchedule
        [0, 0, 0, 1, 1, 1, 2, 2, 2, 2, 1, 1, 1, 1, 1, 1, 1] = some c
      ∧ (∃ reply, (c.thread 1).result = some (.ok reply) ∧ (soldCalls 1).Compensated "a" reply)
      ∧ (∃ o, c.world.orders.get "a" = some o ∧ o.status = .cancelledRefunded)
      ∧ ∃ o, c.world.orders.get "a" = some o ∧ ∃ r,
        c.world.reservations.get o.reservationId = some r
        ∧ (r.status = .cancelled ∨ r.status = .expired) := by
  have hsome : ((started soldCalls heldWorld).runSchedule
    [0, 0, 0, 1, 1, 1, 2, 2, 2, 2, 1, 1, 1, 1, 1, 1, 1]).isSome := by decide
  have hc := Option.eq_some_of_isSome hsome
  have hres : ∃ reply, ((Option.get _ hsome).thread 1).result = some (.ok reply)
      ∧ (soldCalls 1).Compensated "a" reply := ⟨_, rfl, rfl, _, _, rfl⟩
  obtain ⟨reply, hreply, hcomp⟩ := id hres
  exact ⟨_, hc, hres, ⟨_, rfl, rfl⟩, (undone_order_holds_no_seat soldCalls heldWorld_initial
    (Config.reach_of_runSchedule _ hc)).2 1 reply "a" hreply hcomp⟩

end LaunchPad
