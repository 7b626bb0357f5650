import LaunchPad.Proofs.Ledger

/-!
# Expiring holds keeps the ledger

After `UPDATE reservations` an expiring transaction owes each pool what the rows it changed held
(`markExpired_spec`). The map `capacityByTicketType` holds just that, so each pass of the loop
returns a part of it and the loop ends owing nothing. The seats the reservations still hold are
never negative, so a pool has at least as many reserved seats as it is owed, and LEAST and GREATEST
have nothing to clamp (`releaseCapacity_spec`).
-/

namespace LaunchPad

open Interleave Rows

/-! ## The map `capacityByTicketType` -/

section Capacity

/-- What the entries of `m` with key `k` add up to. -/
def owedTo (m : List (String × ℤ)) (k : String) : ℤ :=
  (m.map fun e => if e.1 = k then e.2 else 0).sum

theorem owedTo_nonneg : ∀ {m : List (String × ℤ)}, (∀ e ∈ m, 0 < e.2) → ∀ k, 0 ≤ owedTo m k
  | [], _, k => le_rfl
  | e :: m, h, k => by
    have hm : 0 ≤ owedTo m k := owedTo_nonneg (fun e he => h e (List.mem_cons_of_mem _ he)) k
    have he := h e List.mem_cons_self
    simp only [owedTo, List.map_cons, List.sum_cons] at hm ⊢
    split_ifs <;> omega

theorem owedTo_addCapacity (t : String) (q : ℤ) (k : String) : ∀ m : List (String × ℤ),
    owedTo (addCapacity m t q) k = owedTo m k + if t = k then q else 0
  | [] => by simp [addCapacity, owedTo]
  | (k', v) :: m => by
    have ih := owedTo_addCapacity t q k m
    simp only [owedTo, addCapacity, List.map_cons, List.sum_cons] at ih ⊢
    by_cases hk : k' = t
    · subst hk
      simp only [if_true, List.map_cons, List.sum_cons]
      split_ifs <;> omega
    · simp only [if_neg hk, List.map_cons, List.sum_cons, ih]
      omega

theorem pos_addCapacity {t : String} {q : ℤ} (hq : 0 < q) : ∀ {m : List (String × ℤ)},
    (∀ e ∈ m, 0 < e.2) → ∀ e ∈ addCapacity m t q, 0 < e.2
  | [], _, e, he => by
    simp only [addCapacity, List.mem_singleton] at he
    exact he ▸ hq
  | (k', v) :: m, h, e, he => by
    have hv := h (k', v) List.mem_cons_self
    have hm : ∀ e ∈ m, 0 < e.2 := fun e he => h e (List.mem_cons_of_mem _ he)
    simp only [addCapacity] at he
    split_ifs at he <;> rcases List.mem_cons.1 he with rfl | he
    · exact add_pos hv hq
    · exact hm e he
    · exact hv
    · exact pos_addCapacity hq hm e he

/-- The map adds up the quantities of the rows of each ticket type. -/
theorem owedTo_capacityByTicketType (rows : List ExpiredRow) (k : String) :
    owedTo (capacityByTicketType rows) k
      = (rows.map fun r => if r.ticketTypeId = k then r.quantity else 0).sum := by
  have hfold : ∀ (rows : List ExpiredRow) (m : List (String × ℤ)),
      owedTo (rows.foldl (fun m r => addCapacity m r.ticketTypeId r.quantity) m) k
        = owedTo m k + (rows.map fun r => if r.ticketTypeId = k then r.quantity else 0).sum := by
    intro rows
    induction rows with
    | nil => simp
    | cons r rows ih =>
      intro m
      rw [List.foldl_cons, ih, owedTo_addCapacity, List.map_cons, List.sum_cons, add_assoc]
  rw [capacityByTicketType, hfold]
  simp [owedTo]

theorem pos_capacityByTicketType {rows : List ExpiredRow} (h : ∀ r ∈ rows, 0 < r.quantity) :
    ∀ e ∈ capacityByTicketType rows, 0 < e.2 := by
  have hfold : ∀ (rows : List ExpiredRow) (m : List (String × ℤ)), (∀ r ∈ rows, 0 < r.quantity) →
      (∀ e ∈ m, 0 < e.2) →
      ∀ e ∈ rows.foldl (fun m r => addCapacity m r.ticketTypeId r.quantity) m, 0 < e.2 := by
    intro rows
    induction rows with
    | nil => exact fun m _ hm => hm
    | cons r rows ih =>
      intro m hr hm
      exact ih _ (fun r' hr' => hr r' (List.mem_cons_of_mem _ hr'))
        (pos_addCapacity (hr r List.mem_cons_self) hm)
  exact hfold rows [] h (by simp)

end Capacity

variable {τ : Type} [DecidableEq τ] {t : τ} {db db' : Db τ}

/-! ## Selecting and expiring reservations -/

omit [DecidableEq τ] in
theorem lockReservations_facts : ∀ (ids : List String) (V : TxTable τ String ReservationRow),
    (∀ id ∈ ids, V.Free t id) →
      TxTable.Frame t V (lockReservations t ids V)
        ∧ (V.Locked → (lockReservations t ids V).Locked)
        ∧ (lockReservations t ids V).committed = V.committed
        ∧ (lockReservations t ids V).pending = V.pending
  | [], V, _ => ⟨.refl t V, id, rfl, rfl⟩
  | id :: ids, V, h => by
    have hf := h id List.mem_cons_self
    obtain ⟨h1, h2, h3, h4⟩ := lockReservations_facts ids (V.lock t id)
      fun id' h' => TxTable.free_lock (h id' (List.mem_cons_of_mem _ h')) id
    exact ⟨(TxTable.frame_lock hf).trans h1, fun hV => h2 (TxTable.locked_lock hV hf), h3, h4⟩

theorem selectExpired_eq_some {picked : List String} {now : Time} {scope : Option String} {n : ℤ}
    {r : Except DbError (List String)} (h : selectExpired t picked now scope n db = some (r, db')) :
    r = .error .negativeLimit ∧ db' = db
      ∨ 0 ≤ n ∧ IsBatch (expirable db t now scope) (expiryOf db t) n.toNat picked ∧ r = .ok picked
        ∧ db' = { db with reservations := lockReservations t picked db.reservations } := by
  unfold selectExpired at h
  split_ifs at h with hneg hb <;> simp only [Option.some.injEq, Prod.mk.injEq] at h
  · exact .inl ⟨h.1.symm, h.2.symm⟩
  · exact .inr ⟨not_lt.1 hneg, hb, h.1.symm, h.2.symm⟩

theorem selectExpired_spec {picked : List String} {now : Time} {scope : Option String} {n : ℤ}
    {r : Except DbError (List String)} (h : Idle t db)
    (hs : selectExpired t picked now scope n db = some (r, db')) :
    SeatGuarantee t db db' ∧ ∀ ids, r = .ok ids → Idle t db' ∧ ids.Nodup := by
  rcases selectExpired_eq_some hs with ⟨rfl, rfl⟩ | ⟨-, ⟨hnd, hmem, -⟩, rfl, rfl⟩
  · exact ⟨guarantee_refl t _, fun ids hids => by simp at hids⟩
  · obtain ⟨h1, h2, h3, h4⟩ := lockReservations_facts (t := t) picked db.reservations fun id hid =>
      (Finset.mem_filter.1 (hmem id hid)).2.2
    have hG : SeatGuarantee t db
        { db with reservations := lockReservations t picked db.reservations } := by
      refine ⟨.refl t _, h1, fun _ => Iff.rfl, fun hI => ⟨?_, hI.pools, h2 hI.reservations, hI.log⟩⟩
      rw [h3]
      exact hI.ledger
    refine ⟨hG, fun ids hids => ⟨⟨hG.inv h.inv, h.pools, ?_⟩, ?_⟩⟩
    · rw [h4]
      exact h.reservations
    · simp only [Except.ok.injEq] at hids
      exact hids ▸ hnd

/-- Marking rows expired takes away the seats they held. -/
theorem expireRows_facts : ∀ (ids : List String) (V : TxTable τ String ReservationRow),
    ids.Nodup → (∀ id ∈ ids, V.Free t id ∧ (V.pending t).row id = none
      ∧ ∃ r, V.committed.row id = some r) →
      TxTable.Frame t V (ids.foldl (expireRow t) V)
        ∧ (V.Locked → (ids.foldl (expireRow t) V).Locked)
        ∧ (ids.foldl (expireRow t) V).committed = V.committed
        ∧ ∀ k, (ids.foldl (expireRow t) V).pendingSum t (seatsHeld k) = V.pendingSum t (seatsHeld k)
          - (ids.map fun id => (V.committed.row id).elim 0 (seatsHeld k)).sum
  | [], V, _, _ => ⟨.refl t V, id, rfl, fun k => by simp⟩
  | id :: ids, V, hnd, h => by
    obtain ⟨hf, hp, r, hr⟩ := h id List.mem_cons_self
    obtain ⟨hid, hnd⟩ := List.nodup_cons.1 hnd
    have he : expireRow t V id = V.write t id { r with status := .expired } := by
      unfold expireRow
      rw [TxTable.view, Table.overlay_row_of_none hp, hr]
    obtain ⟨h1, h2, h3, h4⟩ := expireRows_facts ids (expireRow t V id) hnd fun id' h' => by
      obtain ⟨hf', hp', hr'⟩ := h id' (List.mem_cons_of_mem _ h')
      rw [he]
      refine ⟨TxTable.free_write hf' _ _, ?_, hr'⟩
      rw [TxTable.write_pending_self, Table.set_row, if_neg (by rintro rfl; exact hid h')]
      exact hp'
    have hF : TxTable.Frame t V (expireRow t V id) := by rw [he]; exact TxTable.frame_write hf _
    have hL : V.Locked → (expireRow t V id).Locked := fun hV => by
      rw [he]
      exact TxTable.locked_write hV hf _
    have hC : (expireRow t V id).committed = V.committed := by rw [he]; rfl
    refine ⟨hF.trans h1, h2 ∘ hL, h3.trans hC, fun k => ?_⟩
    have hx : seatsHeld k { r with status := .expired } = 0 := by
      simp [seatsHeld, RowStatus.HoldsSeats]
    rw [List.foldl_cons, h4, hC, List.map_cons, List.sum_cons, he,
      TxTable.pendingSum_write hp, hx, hr]
    simp only [Option.elim_some]
    omega

/-- What is left to return to the pools is what the reservations no longer hold. -/
def Releasing (t : τ) (m : List (String × ℤ)) (db : Db τ) : Prop :=
  (∀ e ∈ m, 0 < e.2) ∧ Owes t (fun k => -owedTo m k) db

omit [DecidableEq τ] in
theorem stable_releasing (m : List (String × ℤ)) : Stable (SeatRely t) (Releasing t m) :=
  (Stable.const _).and (stable_owes _)

theorem markExpired_eq_some {ids returned : List String} {r : Except DbError (List ExpiredRow)}
    (h : markExpired t ids returned db = some (r, db')) :
    returned.Perm (pendingAmong db t ids) ∧ (∀ id ∈ returned, db.reservations.Free t id)
      ∧ r = .ok (returning db t returned)
      ∧ db' = { db with reservations := returned.foldl (expireRow t) db.reservations } := by
  unfold markExpired at h
  split_ifs at h with hc
  simp only [Option.some.injEq, Prod.mk.injEq] at h
  exact ⟨hc.1, hc.2, h.1.symm, h.2.symm⟩

theorem markExpired_spec {ids returned : List String} {r : Except DbError (List ExpiredRow)}
    (h : Idle t db) (hnd : ids.Nodup) (hs : markExpired t ids returned db = some (r, db')) :
    SeatGuarantee t db db' ∧ ∀ rows, r = .ok rows →
      Releasing t (capacityByTicketType rows) db' := by
  obtain ⟨hperm, hfree, rfl, rfl⟩ := markExpired_eq_some hs
  have hview : db.reservations.view t = db.reservations.committed := by
    rw [TxTable.view, h.reservations, Table.overlay_empty]
  have hrows : ∀ id ∈ returned, ∃ r, db.reservations.committed.row id = some r
      ∧ r.status = .pending := by
    intro id hid
    have hid' := List.mem_filter.1 (hperm.mem_iff.1 hid)
    rw [hview] at hid'
    rcases hr : db.reservations.committed.row id with _ | r <;> rw [hr] at hid'
    · simp at hid'
    · exact ⟨r, rfl, by simpa using hid'.2⟩
  obtain ⟨h1, h2, h3, h4⟩ := expireRows_facts (t := t) returned db.reservations
    (hperm.nodup_iff.2 (hnd.filter _)) fun id hid => by
      obtain ⟨r, hr, -⟩ := hrows id hid
      exact ⟨hfree id hid, by simp [h.reservations], r, hr⟩
  have hG : SeatGuarantee t db
      { db with reservations := returned.foldl (expireRow t) db.reservations } := by
    refine ⟨.refl t _, h1, fun _ => Iff.rfl, fun hI => ⟨?_, hI.pools, h2 hI.reservations, hI.log⟩⟩
    rw [h3]
    exact hI.ledger
  have hsum : ∀ k, ∀ ids : List String, (∀ id ∈ ids, id ∈ returned) →
      ((returning db t ids).map fun r => if r.ticketTypeId = k then r.quantity else 0).sum
        = (ids.map fun id => (db.reservations.committed.row id).elim 0 (seatsHeld k)).sum := by
    intro k ids
    induction ids with
    | nil => exact fun _ => rfl
    | cons id ids ih =>
      intro hids
      obtain ⟨r, hr, hst⟩ := hrows id (hids id List.mem_cons_self)
      have ih := ih fun id' h' => hids id' (List.mem_cons_of_mem _ h')
      have hheld : seatsHeld k r = if r.ticketTypeId = k then r.quantity else 0 := by
        simp [seatsHeld, hst, RowStatus.HoldsSeats]
      unfold returning at ih ⊢
      rw [List.filterMap_cons_some (b := ⟨id, r.ticketTypeId, r.quantity⟩) (by rw [hview, hr]; rfl),
        List.map_cons, List.sum_cons, List.map_cons, List.sum_cons, ih, hr, Option.elim_some, hheld]
  refine ⟨hG, fun rows hrows' => ?_⟩
  simp only [Except.ok.injEq] at hrows'
  subst hrows'
  refine ⟨pos_capacityByTicketType fun r hr => ?_, hG.inv h.inv, fun k _ _ => ?_,
    fun k p' hp' => ?_⟩
  · unfold returning at hr
    obtain ⟨id, -, hid⟩ := List.mem_filterMap.1 hr
    simp only [Option.map_eq_some_iff] at hid
    obtain ⟨r₀, -, rfl⟩ := hid
    exact r₀.quantity_pos
  · rw [h4, TxTable.pendingSum_of_empty h.reservations, owedTo_capacityByTicketType,
      hsum k returned fun _ hid => hid]
    omega
  · rw [h.pools] at hp'
    simp at hp'

/-! ## Returning the seats -/

theorem releaseCapacity_spec {k : String} {q : ℤ} {m : List (String × ℤ)} {r : Except DbError Unit}
    (h : Releasing t ((k, q) :: m) db) (hs : releaseCapacity t k q db = some (r, db')) :
    SeatGuarantee t db db' ∧ ∀ u, r = .ok u → Releasing t m db' := by
  obtain ⟨hpos, hO⟩ := h
  have hq : 0 < q := hpos (k, q) List.mem_cons_self
  have hm : ∀ e ∈ m, 0 < e.2 := fun e he => hpos e (List.mem_cons_of_mem _ he)
  have hrest := owedTo_nonneg hm k
  have hcons : ∀ k', owedTo ((k, q) :: m) k' = (if k = k' then q else 0) + owedTo m k' :=
    fun _ => by
    simp [owedTo]
  unfold releaseCapacity at hs
  rcases hv : (db.pools.view t).row k with _ | p <;> rw [hv] at hs <;> simp only [] at hs
  · -- a ticket type without a pool: nothing is owed to it
    simp only [Option.some.injEq, Prod.mk.injEq] at hs
    obtain ⟨rfl, rfl⟩ := hs
    obtain ⟨hp, hc⟩ := Option.or_eq_none_iff.1 hv
    refine ⟨guarantee_refl t _, fun _ _ => ⟨hm, hO.inv, fun k' hk' hp' => ?_, fun k' p' hp' => ?_⟩⟩
    · have hkk : k ≠ k' := fun e => hk' (e ▸ hc)
      have := hO.unwritten k' hk' hp'
      rw [hcons, if_neg hkk, zero_add] at this
      exact this
    · have hkk : k ≠ k' := fun e => by rw [← e, hp] at hp'; simp at hp'
      have := hO.written k' p' hp'
      rw [hcons, if_neg hkk, zero_add] at this
      exact this
  · split_ifs at hs with hf
    obtain ⟨hb, ha, hsold, hr⟩ := hO.accounts hv
    rw [hcons, if_pos rfl] at hr
    have hheld := Table.sum_nonneg (db.reservations.view t) (seatsHeld_nonneg k)
    obtain ⟨p₀, d, hc, hp, -, hd⟩ := hO.view hv
    rw [hcons, if_pos rfl] at hd
    -- the reserved seats cover what is returned, so neither clamp bites
    have hmin : min p.totalCapacity (p.availableQty + q) = p.availableQty + q := by omega
    have hmax : max 0 (p.reservedQty - q) = p.reservedQty - q := by omega
    rw [hmin, hmax] at hs
    have hp' : ({ p with availableQty := p.availableQty + q, reservedQty := p.reservedQty - q }
        : PoolRow) = p₀.shift (d - q) := by
      subst hp
      simp only [PoolRow.shift, PoolRow.mk.injEq, true_and, and_true]
      omega
    have hviol : (p₀.shift (d - q)).violated = none := by
      rw [← hp']
      refine PoolRow.violated_eq_none ?_ ?_ ?_ ?_ ?_ <;> simp only [] <;> omega
    have hexact : (PoolEvent.released p (p₀.shift (d - q)) q).Exact := by
      rw [← hp']
      exact ⟨rfl, rfl⟩
    rw [hp'] at hs
    unfold writePool at hs
    rw [hviol] at hs
    simp only [Option.some.injEq, Prod.mk.injEq] at hs
    obtain ⟨rfl, rfl⟩ := hs
    set db₁ : Db τ := { db with poolLog := db.poolLog ++ [.released p (p₀.shift (d - q)) q] }
    have hlog : SeatGuarantee t db db₁ := guarantee_log hexact
    have hO₁ : Owes t (fun k' => -owedTo ((k, q) :: m) k') db₁ :=
      ⟨hlog.inv hO.inv, hO.unwritten, hO.written⟩
    refine ⟨hlog.trans (guarantee_writePool (show db₁.pools.Free t k from hf) _),
      fun _ _ => ⟨hm, ?_⟩⟩
    refine hO₁.writePool hf hc ?_ ?_ fun k' hk' => ?_
    · subst hp
      simp only [PoolRow.shift] at ha
      omega
    · change d - q + -owedTo m k = db.reservations.pendingSum t (seatsHeld k)
      omega
    · rw [hcons, if_neg (Ne.symm hk'), zero_add]

theorem closes_releaseAll {α : Type} (env : ExpiryEnv) {f : Unit → Async (Db τ) DbError α}
    (hf : ∀ db, Owes t 0 db → Closes t (f ()) db) : ∀ (m : List (String × ℤ)) (n : ℕ) (db : Db τ),
    Releasing t m db → Closes t (releaseAll env t n m >>= f) db
  | [], n, db, h => by
    refine hf db ?_
    have := h.2
    simpa [owedTo, Pi.zero_def] using this
  | (k, q) :: m, n, db, h => by
    rw [releaseAll, Async.bind_assoc]
    exact closes_statement (stable_releasing _) h (K := fun _ => Releasing t m)
      (fun _ => stable_releasing m) (fun _ h => h.2.inv) (fun _ _ _ => releaseCapacity_spec)
      fun _ db' h' => closes_releaseAll env hf m (n + 1) db' h'

theorem closes_expirePendingReservations (env : ExpiryEnv) (batchSize : ℤ)
    (ticketTypeId : Option String) (h : Idle t db) :
    Closes t (expirePendingReservations env t batchSize ticketTypeId) db := by
  have hstable : ∀ ids : List String, Stable (SeatRely t) fun db => Idle t db ∧ ids.Nodup :=
    fun _ _ _ h hr => ⟨stable_idle _ _ h.1 hr, h.2⟩
  unfold expirePendingReservations
  refine closes_tryCatch (closes_begin stable_idle h (fun _ h => h.inv) fun db h => ?_)
  refine closes_statement stable_idle h (K := fun ids db => Idle t db ∧ ids.Nodup)
    hstable (fun _ h => h.inv)
    (fun _ _ _ => selectExpired_spec) fun ids db h => ?_
  split_ifs with hids
  · exact closes_commit h.1.owes fun _ h' => closes_pure h'
  refine closes_statement (hstable ids) h
    (K := fun rows => Releasing t (capacityByTicketType rows)) (fun _ => stable_releasing _)
    (fun _ h => h.1.inv) (fun _ _ _ h => markExpired_spec h.1 h.2) fun rows db h => ?_
  refine closes_releaseAll env (fun db hO => ?_) _ 0 db h
  exact closes_commit hO fun _ h' => closes_pure h'

/-! ## Any calls, side by side -/

theorem closes_program (call : SeatCall) (h : Idle t db) : Closes t (call.program t) db := by
  rcases call with ⟨env, k, q, userId⟩ | ⟨env, batchSize, ticketTypeId⟩
  · exact Safe.bind (closes_reserveAtomic env q userId h) (fun _ _ h' => closes_pure h')
      (fun _ _ h' => h')
  · exact Safe.bind (closes_expirePendingReservations env batchSize ticketTypeId h)
      (fun _ _ h' => closes_pure h') (fun _ _ h' => h')

omit [DecidableEq τ] in
theorem inv_ofTables {P : Table String PoolRow} {R : Table String ReservationRow}
    (h : SeatLedger P R) : SeatInv (Db.ofTables P R : Db τ) :=
  ⟨h, TxTable.locked_ofTable P, TxTable.locked_ofTable R, by simp [Db.ofTables]⟩

omit [DecidableEq τ] in
theorem idle_ofTables {P : Table String PoolRow} {R : Table String ReservationRow}
    (h : SeatLedger P R) (t : τ) : Idle t (Db.ofTables P R) :=
  ⟨inv_ofTables h, rfl, rfl⟩

/-- From a database whose ledger is whole, any interleaving of any calls keeps it whole in every
committed state, and returns seats to the pools without clamping and without a CHECK firing. -/
theorem seat_ledger_invariant {P : Table String PoolRow} {R : Table String ReservationRow}
    (h : SeatLedger P R) (calls : τ → SeatCall) {c : Config τ (Db τ) DbError SeatReply}
    (hc : (seatCalls (Db.ofTables P R) calls).Reach c) :
    SeatLedger c.world.pools.committed c.world.reservations.committed
      ∧ ∀ e ∈ c.world.poolLog, e.Exact := by
  have hI : SeatInv c.world := Safe.invariant (R := SeatRely) (G := SeatGuarantee)
    (fun i j hij _ _ hG => ⟨j, hij, hG⟩) (fun t => closes_program (calls t) (idle_ofTables h t)) hc
    (fun _ _ _ hI hG => hG.inv hI) (inv_ofTables h)
  exact ⟨hI.ledger, hI.log⟩

/-- Two seats, one of them held until noon. -/
def vipPools : Table String PoolRow := Table.empty.set "vip" ⟨2, 1, 1, 0⟩

def vipReservations : Table String ReservationRow :=
  Table.empty.set "r0" ⟨"ann", "vip", 1, .pending, 12, by decide⟩

/-- A buyer takes the free seat while the held one expires. -/
def vipCalls : Bool → SeatCall
  | true => .reserveAtomic ⟨"r1", 13, .answered, .answered, .answered, .answered, .answered,
      .answered, .answered⟩ "vip" 1 "bob"
  | false => .expirePendingReservations ⟨13, ["r0"], ["r0"], .answered, .answered, .answered,
      fun _ => .answered, .answered, .answered⟩ 10 none

theorem seatLedger_vipPools {R : Table String ReservationRow} (h : R.sum (seatsHeld "vip") = 1) :
    SeatLedger vipPools R := by
  intro k p hp
  rcases Table.set_row_eq_some.1 hp with ⟨rfl, rfl⟩ | ⟨-, hp⟩
  · exact ⟨by decide, by decide, by decide, by decide, h.symm⟩
  · cases hp

theorem vip_ledger : SeatLedger vipPools vipReservations := seatLedger_vipPools (by decide)

theorem seat_ledger_invariant_vip :
    ∃ c, (seatCalls (Db.ofTables vipPools vipReservations) vipCalls).runSchedule
        [true, false, true, false, true, false, true, true, false, false] = some c
      ∧ SeatLedger c.world.pools.committed c.world.reservations.committed
      ∧ c.world.pools.committed.row "vip" = some ⟨2, 1, 1, 0⟩
      ∧ (c.world.reservations.committed.row "r0").map (·.status) = some .expired := by
  refine ⟨_, Option.eq_some_of_isSome (by decide), ?_, by decide, by decide⟩
  exact (seat_ledger_invariant vip_ledger vipCalls (Config.reach_of_runSchedule _
    (Option.eq_some_of_isSome (by decide)))).1

end LaunchPad
