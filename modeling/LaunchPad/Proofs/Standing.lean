import LaunchPad.Proofs.SeatSteps

/-!
# What an open transaction has written

Where a call stands tells the versions it has written (`Standing`): a `reserveAtomic` call between
its INSERT and its COMMIT has one reservation, and then the row of its pool; an expiring one has
EXPIRED versions of the rows it selected, and the pools of the first entries of its map with their
seats back. The rows are under its locks, so this stays true whatever the others do
(`stable_standing`), and holds along every trace (`standing_of_trace`).
-/

namespace LaunchPad

open Interleave Rows

/-! ## The keys of `capacityByTicketType` -/

section Capacity

theorem mem_keys_addCapacity {t : String} {q : ℤ} {k : String} : ∀ {m : List (String × ℤ)},
    k ∈ (addCapacity m t q).map Prod.fst ↔ k ∈ m.map Prod.fst ∨ k = t
  | [] => by simp [addCapacity]
  | (k', v) :: m => by
    unfold addCapacity
    split_ifs with hk
    · subst hk
      simp
      tauto
    · simp only [List.map_cons, List.mem_cons, mem_keys_addCapacity (m := m)]
      tauto

theorem nodup_keys_addCapacity {t : String} {q : ℤ} : ∀ {m : List (String × ℤ)},
    (m.map Prod.fst).Nodup → ((addCapacity m t q).map Prod.fst).Nodup
  | [], _ => by simp [addCapacity]
  | (k', v) :: m, h => by
    rw [List.map_cons, List.nodup_cons] at h
    unfold addCapacity
    split_ifs with hk
    · rw [List.map_cons, List.nodup_cons]
      exact h
    · rw [List.map_cons, List.nodup_cons, mem_keys_addCapacity]
      exact ⟨fun hmem => hmem.elim h.1 hk, nodup_keys_addCapacity h.2⟩

theorem keys_capacityByTicketType (rows : List ExpiredRow) :
    ((capacityByTicketType rows).map Prod.fst).Nodup
      ∧ ∀ k, k ∈ (capacityByTicketType rows).map Prod.fst ↔ k ∈ rows.map ExpiredRow.ticketTypeId := by
  have hfold : ∀ (rows : List ExpiredRow) (m : List (String × ℤ)), (m.map Prod.fst).Nodup →
      ((rows.foldl (fun m r => addCapacity m r.ticketTypeId r.quantity) m).map Prod.fst).Nodup
        ∧ ∀ k, k ∈ (rows.foldl (fun m r => addCapacity m r.ticketTypeId r.quantity) m).map Prod.fst
          ↔ k ∈ m.map Prod.fst ∨ k ∈ rows.map ExpiredRow.ticketTypeId := by
    intro rows
    induction rows with
    | nil => exact fun m hm => ⟨hm, by simp⟩
    | cons r rows ih =>
      intro m hm
      obtain ⟨hnd, hmem⟩ := ih (addCapacity m r.ticketTypeId r.quantity) (nodup_keys_addCapacity hm)
      refine ⟨hnd, fun k => ?_⟩
      rw [List.foldl_cons, hmem, mem_keys_addCapacity, List.map_cons, List.mem_cons, or_assoc]
  obtain ⟨hnd, hmem⟩ := hfold rows [] (by simp)
  exact ⟨hnd, fun k => (hmem k).trans (by simp)⟩

/-- An entry of the map is all that is owed to its pool. -/
theorem owedTo_of_mem : ∀ {m : List (String × ℤ)}, (m.map Prod.fst).Nodup → ∀ {k : String} {q : ℤ},
    (k, q) ∈ m → owedTo m k = q
  | e :: m, hnd, k, q, hmem => by
    rw [List.map_cons, List.nodup_cons] at hnd
    have hcons : owedTo (e :: m) k = (if e.1 = k then e.2 else 0) + owedTo m k := by
      simp [owedTo]
    rcases List.mem_cons.1 hmem with rfl | hmem'
    · have hzero : owedTo m k = 0 := by
        refine List.sum_eq_zero fun x hx => ?_
        obtain ⟨e', he', rfl⟩ := List.mem_map.1 hx
        exact if_neg fun h => hnd.1 (List.mem_map.2 ⟨e', he', h⟩)
      rw [hcons, hzero, if_pos rfl, add_zero]
    · have hne : e.1 ≠ k := fun h => hnd.1 (List.mem_map.2 ⟨(k, q), hmem', h.symm⟩)
      rw [hcons, if_neg hne, zero_add, owedTo_of_mem hnd.2 hmem']

end Capacity

variable {τ : Type} {t : τ} {db db' : Db τ}

/-! ## Standing -/

/-- A `reserveAtomic` call between its INSERT and its COMMIT: the pool row, and the reservation. -/
structure Booked (t : τ) (env : ReserveEnv) (k : String) (q : ℤ) (u : String) (p : PoolRow)
    (db : Db τ) : Prop where
  enough : q ≤ p.availableQty
  lock : db.pools.lockedBy k = some t
  row : db.pools.committed.row k = some p
  fresh : db.reservations.committed.row env.reservationId = none
  pending : ∃ hq : 0 < q, db.reservations.pending t = Table.empty.set env.reservationId
    ⟨u, k, q, .active, env.now + 10 * 60 * 1000, hq⟩

/-- The rows an expiring call has selected. -/
structure Picked (t : τ) (now : Time) (scope : Option String) (limit : ℤ) (ids : List String)
    (db : Db τ) : Prop where
  nodup : ids.Nodup
  length : (ids.length : ℤ) ≤ limit
  lock : ∀ id ∈ ids, db.reservations.lockedBy id = some t
  row : ∀ id ∈ ids, ∃ r, db.reservations.committed.row id = some r ∧ r.Expirable now scope

/-- The rows an expiring call has marked, and its versions of them. -/
structure MarkedRows (t : τ) (now : Time) (scope : Option String) (limit : ℤ)
    (rows : List ExpiredRow) (db : Db τ) : Prop where
  nodup : (rows.map ExpiredRow.id).Nodup
  length : (rows.length : ℤ) ≤ limit
  row : ∀ x ∈ rows, ∃ r, db.reservations.committed.row x.id = some r ∧ r.Expirable now scope
    ∧ x = ⟨x.id, r.ticketTypeId, r.quantity⟩
    ∧ (db.reservations.pending t).row x.id = some { r with status := .expired }
  other : ∀ id, id ∉ rows.map ExpiredRow.id → (db.reservations.pending t).row id = none

/-- The loop over the map, with the pools of the first `n` entries written and `m` to come. -/
structure Looping (t : τ) (rows : List ExpiredRow) (n : ℕ) (m : List (String × ℤ)) (db : Db τ) :
    Prop where
  releasing : Releasing t m db
  rest : (capacityByTicketType rows).drop n = m
  pools : ∀ k, (db.pools.pending t).row k
    = if k ∈ ((capacityByTicketType rows).take n).map Prod.fst then
        (db.pools.committed.row k).map fun p => p.shift (-owedTo (capacityByTicketType rows) k)
      else none

/-- What transaction `t` has locked and written where it stands. -/
def Standing (t : τ) (a : SeatAction) (p : SeatPhase) (db : Db τ) : Prop :=
  match a, p with
  | .call (.reserveAtomic _ k q _), .insert =>
    Idle t db ∧ ∃ p, HoldsPool t k p db ∧ q ≤ p.availableQty
  | .call (.reserveAtomic env k q u), .update =>
    ∃ p, Reserving t k q p db ∧ Booked t env k q u p db ∧ db.pools.pending t = .empty
  | .call (.reserveAtomic env k q u), .commitReserve =>
    Owes t 0 db ∧ ∃ p, Booked t env k q u p db
      ∧ db.pools.pending t = Table.empty.set k (p.shift q)
  | .call (.reserveAtomic _ k q _), .reject =>
    Idle t db ∧ (db.pools.committed.row k = none ∨ ∃ p, HoldsPool t k p db ∧ p.availableQty < q)
  | .call (.expirePendingReservations env n scope), .mark ids =>
    Idle t db ∧ Picked t env.now (truthy scope) n ids db
  | .call (.expirePendingReservations env n scope), .release i rows k q rest =>
    MarkedRows t env.now (truthy scope) n rows db ∧ Looping t rows i ((k, q) :: rest) db
  | .call (.expirePendingReservations env n scope), .commitExpiry rows =>
    MarkedRows t env.now (truthy scope) n rows db ∧ ∃ i, Looping t rows i [] db
  | _, _ => Idle t db

theorem Looping.owes {rows : List ExpiredRow} {i : ℕ} (h : Looping t rows i [] db) :
    Owes t 0 db := by
  simpa [owedTo, Pi.zero_def] using h.releasing.2

theorem Standing.inv {a : SeatAction} {p : SeatPhase} (h : Standing t a p db) : SeatInv db := by
  unfold Standing at h
  split at h
  · exact h.1.inv
  · obtain ⟨p, hr, -⟩ := h
    exact hr.2.1.inv
  · exact h.1.inv
  · exact h.1.inv
  · exact h.1.inv
  · exact h.2.releasing.2.inv
  · obtain ⟨i, hl⟩ := h.2
    exact hl.owes.inv
  · exact h.inv

/-! ## Others leave it -/

structure Db.Locked (db : Db τ) : Prop where
  pools : db.pools.Locked
  reservations : db.reservations.Locked

/-- What a statement of transaction `t` leaves to the others. -/
structure Db.Frame (t : τ) (db db' : Db τ) : Prop where
  pools : TxTable.Frame t db.pools db'.pools
  reservations : TxTable.Frame t db.reservations db'.reservations

theorem SeatInv.locked (h : SeatInv db) : db.Locked := ⟨h.pools, h.reservations⟩

theorem SeatGuarantee.frame (h : SeatGuarantee t db db') : Db.Frame t db db' :=
  ⟨h.pools, h.reservations⟩

theorem stable_booked {env : ReserveEnv} {k u : String} {q : ℤ} {p : PoolRow}
    {t' : τ} (ht : t ≠ t') (hG : Db.Frame t' db db') (hdb : db.Locked)
    (h : Booked t env k q u p db) : Booked t env k q u p db' := by
  obtain ⟨hq, hpending⟩ := h.pending
  have hlock : db.reservations.lockedBy env.reservationId = some t :=
    hdb.reservations t _ _ (by rw [hpending, Table.set_row_self])
  refine ⟨h.enough, (hG.pools.lockedBy k t ht).2 h.lock, ?_, ?_, hq, ?_⟩
  · rw [hG.pools.committed k t ht h.lock, h.row]
  · rw [hG.reservations.committed _ t ht hlock, h.fresh]
  · rw [hG.reservations.pending t ht, hpending]

theorem stable_picked {now : Time} {scope : Option String} {limit : ℤ} {ids : List String}
    {t' : τ} (ht : t ≠ t') (hG : SeatGuarantee t' db db')
    (h : Picked t now scope limit ids db) : Picked t now scope limit ids db' := by
  refine ⟨h.nodup, h.length, fun id hid => (hG.reservations.lockedBy id t ht).2 (h.lock id hid),
    fun id hid => ?_⟩
  rw [hG.reservations.committed id t ht (h.lock id hid)]
  exact h.row id hid

theorem stable_markedRows {now : Time} {scope : Option String} {limit : ℤ}
    {rows : List ExpiredRow} {t' : τ} (ht : t ≠ t') (hG : SeatGuarantee t' db db')
    (hinv : SeatInv db) (h : MarkedRows t now scope limit rows db) :
    MarkedRows t now scope limit rows db' := by
  refine ⟨h.nodup, h.length, fun x hx => ?_, fun id hid => ?_⟩
  · obtain ⟨r, hr, hexp, hrow, hp⟩ := h.row x hx
    refine ⟨r, ?_, hexp, hrow, by rw [hG.reservations.pending t ht, hp]⟩
    rw [hG.reservations.committed x.id t ht (hinv.reservations t x.id _ hp), hr]
  · rw [hG.reservations.pending t ht, h.other id hid]

variable [DecidableEq τ]

theorem stable_looping {rows : List ExpiredRow} {i : ℕ} {m : List (String × ℤ)} {t' : τ}
    (ht : t ≠ t') (hG : SeatGuarantee t' db db') (h : Looping t rows i m db) :
    Looping t rows i m db' := by
  refine ⟨stable_releasing m db db' h.releasing ⟨t', ht, hG⟩, h.rest, fun k => ?_⟩
  have hpools := h.pools k
  rw [hG.pools.pending t ht]
  rcases hc : db.pools.committed.row k with _ | p
  · rw [(hG.rows k).2 hc]
    rwa [hc] at hpools
  · rcases hp : (db.pools.pending t).row k with _ | p'
    · rw [hp, hc] at hpools
      split_ifs at hpools with hk
      · simp at hpools
      · rw [if_neg hk]
    · rw [hG.pools.committed k t ht (h.releasing.2.inv.pools t k p' hp), ← hp, hpools]

theorem stable_standing (a : SeatAction) (p : SeatPhase) :
    Stable (SeatRely t) (Standing t a p) := by
  intro db db' h hrely
  have hinv := h.inv
  obtain ⟨t', ht, hG⟩ := hrely
  have hidle : Idle t db → Idle t db' := fun h => stable_idle db db' h ⟨t', ht, hG⟩
  have hholds : ∀ {k p}, HoldsPool t k p db → HoldsPool t k p db' := fun h =>
    stable_holdsPool _ _ db db' h ⟨t', ht, hG⟩
  unfold Standing at h ⊢
  revert h
  split <;> intro h
  · obtain ⟨hI, p, hp, hq⟩ := h
    exact ⟨hidle hI, p, hholds hp, hq⟩
  · obtain ⟨p, hr, hb, hp⟩ := h
    exact ⟨p, stable_reserving _ p db db' hr ⟨t', ht, hG⟩, stable_booked ht hG.frame hinv.locked hb,
      (hG.pools.pending t ht).trans hp⟩
  · obtain ⟨hO, p, hb, hp⟩ := h
    exact ⟨stable_owes 0 db db' hO ⟨t', ht, hG⟩, p, stable_booked ht hG.frame hinv.locked hb,
      (hG.pools.pending t ht).trans hp⟩
  · obtain ⟨hI, hn | ⟨p, hp, hq⟩⟩ := h
    · exact ⟨hidle hI, .inl ((hG.rows _).2 hn)⟩
    · exact ⟨hidle hI, .inr ⟨p, hholds hp, hq⟩⟩
  · exact ⟨hidle h.1, stable_picked ht hG h.2⟩
  · exact ⟨stable_markedRows ht hG hinv h.1, stable_looping ht hG h.2⟩
  · obtain ⟨hm, i, hl⟩ := h
    exact ⟨stable_markedRows ht hG hinv hm, i, stable_looping ht hG hl⟩
  · exact hidle h

/-! ## Its own statements keep it -/

theorem loop_ne_catching {i : ℕ} {rows : List ExpiredRow} {m : List (String × ℤ)} {e : DbError} :
    SeatPhase.loop i rows m ≠ .catching e := by
  cases m <;> simp [SeatPhase.loop]

/-- A statement that leads into the `catch` leaves the transaction closed. -/
theorem idle_of_failed {β : Type} {fate : Fate} {s : Sync (Db τ) DbError β} {ok : β → SeatPhase}
    {e : DbError} (hinv : SeatInv db) (hs : ∀ r db₁, s db = some (r, db₁) → SeatGuarantee t db db₁)
    (hok : ∀ b, ok b ≠ .catching e)
    (hm : Machine.segment ((tx t).statement fate s) ok .catching db = some (db', .catching e)) :
    SeatGuarantee t db db' ∧ Idle t db' := by
  rcases Machine.segment_statement hm with ⟨b, -, hp⟩ | ⟨e', db₁, -, rfl, ⟨-, rfl⟩ | hsd⟩
  · exact absurd hp.symm (hok b)
  · exact ⟨guarantee_rollback t _, idle_rollback hinv t⟩
  · have hG := hs _ _ hsd
    exact ⟨hG.trans (guarantee_rollback t db₁), idle_rollback (hG.inv hinv) t⟩

theorem idle_of_catching {c : SeatCall} {p : SeatPhase} {e : DbError}
    (h : Standing t (.call c) p db) (hm : c.move t p db = some (db', .catching e)) :
    SeatGuarantee t db db' ∧ Idle t db' := by
  have hinv := h.inv
  have hpure : ∀ (r : Except DbError Unit) db₁, (pure () : Sync (Db τ) DbError Unit) db
      = some (r, db₁) → SeatGuarantee t db db₁ := by
    intro r db₁ hr
    simp only [Sync.pure_apply, Option.some.injEq, Prod.mk.injEq] at hr
    exact hr.2 ▸ guarantee_refl t db
  have hcommit : ∀ {fate : Fate} {ok : Unit → SeatPhase}, Owes t 0 db →
      Machine.segment ((tx t).commitTx fate) ok .catching db = some (db', .catching e) →
      SeatGuarantee t db db' ∧ Idle t db' := by
    intro fate ok hO hm
    rcases Machine.segment_commitTx hm with ⟨rfl, -⟩ | ⟨-, rfl, -⟩
    · exact ⟨guarantee_commit hO, idle_commit hO⟩
    · exact ⟨guarantee_rollback t db, idle_rollback hinv t⟩
  have hrollback : ∀ {fate : Fate} {ok : Unit → SeatPhase} {err : DbError → SeatPhase},
      Machine.segment ((tx t).rollbackTx fate) ok err db = some (db', .catching e) →
      SeatGuarantee t db db' ∧ Idle t db' := by
    intro fate ok err hm
    obtain ⟨rfl, -⟩ := Machine.segment_rollbackTx hm
    exact ⟨guarantee_rollback t db, idle_rollback hinv t⟩
  rcases c with ⟨env, k, q, u⟩ | ⟨env, n, scope⟩
  · cases p <;> simp only [SeatCall.move, reduceCtorEq] at hm
    case begin => exact idle_of_failed hinv hpure (by simp) hm
    case select =>
      refine idle_of_failed hinv (fun r db₁ hs => (selectPoolForUpdate_spec h hs).1) ?_ hm
      rintro (_ | n)
      · simp
      · simp only []
        split_ifs <;> simp
    case insert =>
      obtain ⟨hI, p, hp, -⟩ := h
      exact idle_of_failed hinv (fun r db₁ hs => (insertReservation_spec hI hp hs).1) (by simp) hm
    case update =>
      obtain ⟨p, hr, -⟩ := h
      refine idle_of_failed hinv (fun r db₁ hs => (updatePoolReserve_spec hr hs).1) ?_ hm
      intro n
      split_ifs <;> simp
    case commitReserve => exact hcommit h.1 hm
    case reject => exact hrollback hm
    case catching => exact hrollback hm
  · cases p <;> simp only [SeatCall.move, reduceCtorEq] at hm
    case begin => exact idle_of_failed hinv hpure (by simp) hm
    case scan =>
      refine idle_of_failed hinv (fun r db₁ hs => (selectExpired_spec h hs).1) ?_ hm
      intro ids
      split_ifs <;> simp
    case mark =>
      obtain ⟨hI, hpicked⟩ := h
      exact idle_of_failed hinv (fun r db₁ hs => (markExpired_spec hI hpicked.nodup hs).1)
        (fun _ => loop_ne_catching) hm
    case release =>
      exact idle_of_failed hinv (fun r db₁ hs => (releaseCapacity_spec h.2.releasing hs).1)
        (fun _ => loop_ne_catching) hm
    case commitExpiry =>
      obtain ⟨i, hl⟩ := h.2
      exact hcommit hl.owes hm
    case catching => exact hrollback hm

omit [DecidableEq τ] in
theorem Idle.view_pools (h : Idle t db) : db.pools.view t = db.pools.committed := by
  rw [TxTable.view, h.pools, Table.overlay_empty]

omit [DecidableEq τ] in
theorem Idle.view_reservations (h : Idle t db) :
    db.reservations.view t = db.reservations.committed := by
  rw [TxTable.view, h.reservations, Table.overlay_empty]

theorem Standing.lock {env : ReserveEnv} {k u : String} {q : ℤ} {p : PoolRow} (h : Idle t db)
    (hrow : (db.pools.view t).row k = some p) (hfree : db.pools.Free t k) :
    Standing t (.call (.reserveAtomic env k q u)) (if p.availableQty < q then .reject else .insert)
      { db with pools := db.pools.lock t k } := by
  have hI : Idle t { db with pools := db.pools.lock t k } :=
    ⟨(guarantee_lockPool hfree).inv h.inv, h.pools, h.reservations⟩
  have hp : HoldsPool t k p { db with pools := db.pools.lock t k } := by
    rw [h.view_pools] at hrow
    exact ⟨TxTable.lock_lockedBy _ t k, hrow, by simp [h.pools]⟩
  split_ifs with hq
  · exact ⟨hI, .inr ⟨p, hp, hq⟩⟩
  · exact ⟨hI, p, hp, not_lt.1 hq⟩

theorem Standing.insert {env : ReserveEnv} {k u : String} {q : ℤ} (hq : 0 < q)
    (h : Standing t (.call (.reserveAtomic env k q u)) .insert db)
    (hfree : db.reservations.Free t env.reservationId)
    (hrow : (db.reservations.view t).row env.reservationId = none) :
    Standing t (.call (.reserveAtomic env k q u)) .update
      { db with
        reservations := db.reservations.write t env.reservationId
          ⟨u, k, q, .active, env.now + 10 * 60 * 1000, hq⟩ } := by
  obtain ⟨hI, p, hp, hle⟩ := h
  have hs : insertReservation t env.reservationId u k q (env.now + 10 * 60 * 1000) db
      = some (.ok (), { db with
        reservations := db.reservations.write t env.reservationId
          ⟨u, k, q, .active, env.now + 10 * 60 * 1000, hq⟩ }) := by
    simp only [insertReservation, hq, hfree, hrow, if_true, dif_pos]
  obtain ⟨-, hreserving⟩ := insertReservation_spec hI hp hs
  rw [hI.view_reservations] at hrow
  refine ⟨p, hreserving () rfl, ⟨hle, hp.1, hp.2.1, hrow, hq, ?_⟩, hI.pools⟩
  rw [TxTable.write_pending_self, hI.reservations]

theorem Standing.update {env : ReserveEnv} {k u : String} {q : ℤ} {p : PoolRow}
    (h : Standing t (.call (.reserveAtomic env k q u)) .update db)
    (hrow : (db.pools.view t).row k = some p) (hfree : db.pools.Free t k)
    (hq : q ≤ p.availableQty) (hcheck : (p.shift q).violated = none) :
    Standing t (.call (.reserveAtomic env k q u)) .commitReserve
      { db with pools := db.pools.write t k (p.shift q) } := by
  obtain ⟨p₀, hr, hb, hpending⟩ := h
  obtain rfl : p₀ = p := by
    rw [TxTable.view, hpending, Table.overlay_empty, hb.row] at hrow
    exact Option.some.inj hrow
  have hs : updatePoolReserve t k q db
      = some (.ok 1, { db with pools := db.pools.write t k (p₀.shift q) }) := by
    have hw : writePool t k (p₀.shift q) db
        = some (.ok (), { db with pools := db.pools.write t k (p₀.shift q) }) := by
      simp only [writePool, hcheck]
    simp only [updatePoolReserve, hrow, hfree, hq, if_true]
    change (writePool t k (p₀.shift q) >>= fun _ => pure 1) db = _
    rw [Sync.bind_apply, hw]
    rfl
  obtain ⟨-, howes⟩ := updatePoolReserve_spec hr hs
  refine ⟨(howes 1 rfl).2 (by simp), p₀, ⟨hb.enough, ?_, hb.row, hb.fresh, hb.pending⟩, ?_⟩
  · rw [TxTable.write_lockedBy, TxTable.lock_lockedBy]
  · rw [TxTable.write_pending_self, hpending]

omit [DecidableEq τ] in
theorem lockedBy_lockReservations : ∀ {ids : List String} {V : TxTable τ String ReservationRow}
    {id : String}, (id ∈ ids ∨ V.lockedBy id = some t) →
      (lockReservations t ids V).lockedBy id = some t
  | [], V, id, h => h.resolve_left (by simp)
  | a :: ids, V, id, h => by
    change (lockReservations t ids (V.lock t a)).lockedBy id = some t
    refine lockedBy_lockReservations ?_
    rcases eq_or_ne id a with rfl | hne
    · exact .inr (TxTable.lock_lockedBy V t id)
    · rw [TxTable.lockedBy_lock_of_ne V t hne]
      exact h.imp_left fun h => (List.mem_cons.1 h).resolve_left hne

/-- The rows of the batch, where the transaction has written nothing. -/
theorem Picked.of_batch {now : Time} {scope : Option String} {n : ℤ} {ids : List String}
    (hview : db.reservations.view t = db.reservations.committed) (hn : 0 ≤ n)
    (hb : IsBatch (expirable db t now scope) (expiryOf db t) n.toNat ids) :
    Picked t now scope n ids { db with reservations := lockReservations t ids db.reservations } := by
  obtain ⟨hnd, hmem, hlen, -⟩ := hb
  refine ⟨hnd, by omega, fun id hid => lockedBy_lockReservations (.inl hid), fun id hid => ?_⟩
  have hexp := (Finset.mem_filter.1 (hmem id hid)).2.1
  rw [hview, Option.any_eq_true] at hexp
  obtain ⟨r, hr, hexp⟩ := hexp
  exact ⟨r, by rw [committed_lockReservations, hr], by simpa using hexp⟩

theorem Standing.scan {env : ExpiryEnv} {n : ℤ} {scope : Option String} (h : Idle t db)
    (hn : 0 ≤ n)
    (hb : IsBatch (expirable db t env.now (truthy scope)) (expiryOf db t) n.toNat env.picked) :
    SeatGuarantee t db
        { db with reservations := lockReservations t env.picked db.reservations }
      ∧ Idle t { db with reservations := lockReservations t env.picked db.reservations }
      ∧ Picked t env.now (truthy scope) n env.picked
        { db with reservations := lockReservations t env.picked db.reservations } := by
  have hs : selectExpired t env.picked env.now (truthy scope) n db = some (.ok env.picked,
      { db with reservations := lockReservations t env.picked db.reservations }) := by
    simp only [selectExpired, not_lt.2 hn, hb, if_false, if_true]
  obtain ⟨hG, hI⟩ := selectExpired_spec h hs
  exact ⟨hG, (hI _ rfl).1, .of_batch h.view_reservations hn hb⟩

/-- The versions that marking rows leaves. -/
theorem pending_expireRows : ∀ {ids : List String} {V : TxTable τ String ReservationRow},
    ids.Nodup → (∀ id ∈ ids, (V.pending t).row id = none) → ∀ id,
      ((ids.foldl (expireRow t) V).pending t).row id
        = if id ∈ ids then (V.committed.row id).map fun r => { r with status := .expired }
          else (V.pending t).row id
  | [], V, _, _, id => by simp
  | a :: ids, V, hnd, hnone, id => by
    obtain ⟨ha, hnd⟩ := List.nodup_cons.1 hnd
    have hview : (V.view t).row a = V.committed.row a :=
      Table.overlay_row_of_none (hnone a List.mem_cons_self)
    have hpending : ∀ id, ((expireRow t V a).pending t).row id
        = if id = a then (V.committed.row a).map fun r => { r with status := .expired }
          else (V.pending t).row id := by
      intro id
      unfold expireRow
      rw [hview]
      rcases V.committed.row a with _ | r
      · split_ifs with hid
        · rw [hid, hnone a List.mem_cons_self]
          rfl
        · rfl
      · simp only [TxTable.write_pending_self, Table.set_row, Option.map_some]
    have hrest : ∀ id ∈ ids, ((expireRow t V a).pending t).row id = none := by
      intro id hid
      rw [hpending, if_neg (ne_of_mem_of_not_mem hid ha), hnone id (List.mem_cons_of_mem _ hid)]
    rw [List.foldl_cons, pending_expireRows hnd hrest, committed_expireRow, hpending]
    rcases eq_or_ne id a with rfl | hne
    · simp [ha]
    · simp [hne]

omit [DecidableEq τ] in
theorem map_id_returning : ∀ {ids : List String},
    (∀ id ∈ ids, ∃ r, (db.reservations.view t).row id = some r) →
      (returning db t ids).map ExpiredRow.id = ids
  | [], _ => rfl
  | id :: ids, h => by
    obtain ⟨r, hr⟩ := h id List.mem_cons_self
    have ih := map_id_returning fun id' h' => h id' (List.mem_cons_of_mem _ h')
    unfold returning at ih ⊢
    rw [List.filterMap_cons_some (b := ⟨id, r.ticketTypeId, r.quantity⟩) (by rw [hr]; rfl),
      List.map_cons, ih]

/-- What the update returns of the rows it marks. -/
theorem Picked.marked {now : Time} {scope : Option String} {n : ℤ} {ids returned : List String}
    (h : Picked t now scope n ids db) (hnone : db.reservations.pending t = .empty)
    (hperm : returned.Perm (pendingAmong db t ids)) :
    MarkedRows t now scope n (returning db t returned)
      { db with reservations := returned.foldl (expireRow t) db.reservations } := by
  have hview : db.reservations.view t = db.reservations.committed := by
    rw [TxTable.view, hnone, Table.overlay_empty]
  have hsub : ∀ id ∈ returned, id ∈ ids := fun id hid =>
    (List.mem_filter.1 (hperm.mem_iff.1 hid)).1
  have hnd : returned.Nodup := hperm.nodup_iff.2 (h.nodup.filter _)
  have hids : (returning db t returned).map ExpiredRow.id = returned := by
    refine map_id_returning fun id hid => ?_
    obtain ⟨r, hr, -⟩ := h.row id (hsub id hid)
    exact ⟨r, by rw [hview, hr]⟩
  have hlen : returned.length ≤ ids.length :=
    hperm.length_eq ▸ List.length_filter_le _ _
  have hpending := pending_expireRows (t := t) (V := db.reservations) hnd
    fun id _ => by simp [hnone]
  refine ⟨by rwa [hids], ?_, fun x hx => ?_, fun id hid => ?_⟩
  · have hl := congrArg List.length hids
    rw [List.length_map] at hl
    have := h.length
    omega
  · unfold returning at hx
    obtain ⟨id, hid, hx⟩ := List.mem_filterMap.1 hx
    obtain ⟨r, hr, hexp⟩ := h.row id (hsub id hid)
    rw [hview, hr] at hx
    obtain rfl := Option.some.inj hx
    refine ⟨r, by rw [committed_expireRows, hr], hexp, rfl, ?_⟩
    rw [hpending, if_pos hid, hr]
    rfl
  · rw [hids] at hid
    rw [hpending, if_neg hid, hnone]
    rfl

theorem Standing.mark {env : ExpiryEnv} {n : ℤ} {scope : Option String} {ids : List String}
    (h : Standing t (.call (.expirePendingReservations env n scope)) (.mark ids) db)
    (hperm : env.returned.Perm (pendingAmong db t ids))
    (hfree : ∀ id ∈ env.returned, db.reservations.Free t id) :
    SeatGuarantee t db
        { db with reservations := env.returned.foldl (expireRow t) db.reservations }
      ∧ MarkedRows t env.now (truthy scope) n (returning db t env.returned)
        { db with reservations := env.returned.foldl (expireRow t) db.reservations }
      ∧ Looping t (returning db t env.returned) 0
        (capacityByTicketType (returning db t env.returned))
        { db with reservations := env.returned.foldl (expireRow t) db.reservations } := by
  obtain ⟨hI, hpicked⟩ := h
  have hs : markExpired t ids env.returned db = some (.ok (returning db t env.returned),
      { db with reservations := env.returned.foldl (expireRow t) db.reservations }) := by
    unfold markExpired
    rw [if_pos ⟨hperm, hfree⟩]
  obtain ⟨hG, hreleasing⟩ := markExpired_spec hI hpicked.nodup hs
  exact ⟨hG, hpicked.marked hI.reservations hperm, hreleasing _ rfl, rfl, fun k => by
    simp [hI.pools]⟩

/-- A turn of the loop returns what the map holds for its pool. -/
theorem Looping.release {rows : List ExpiredRow} {i : ℕ} {k : String} {q : ℤ}
    {rest : List (String × ℤ)} (h : Looping t rows i ((k, q) :: rest) db)
    (hs : releaseCapacity t k q db = some (.ok (), db'))
    (hpools : db'.pools.committed = db.pools.committed)
    (hother : ∀ k', k' ≠ k → (db'.pools.pending t).row k' = (db.pools.pending t).row k')
    (hself : (db'.pools.pending t).row k
      = (db.pools.committed.row k).map fun p => p.shift (-q)) :
    Looping t rows (i + 1) rest db' := by
  obtain ⟨-, hreleasing⟩ := releaseCapacity_spec h.releasing hs
  obtain ⟨hnd, -⟩ := keys_capacityByTicketType rows
  have hmem : (k, q) ∈ capacityByTicketType rows :=
    List.mem_of_mem_drop (h.rest ▸ List.mem_cons_self)
  have hlt : i < (capacityByTicketType rows).length := by
    by_contra hge
    have hnil := List.drop_eq_nil_of_le (not_lt.1 hge)
    rw [h.rest] at hnil
    simp at hnil
  have hget : (capacityByTicketType rows)[i] = (k, q) := by
    have hdrop := List.drop_eq_getElem_cons hlt
    rw [h.rest] at hdrop
    exact (List.cons.inj hdrop).1.symm
  have htake : ∀ k', k' ∈ ((capacityByTicketType rows).take (i + 1)).map Prod.fst
      ↔ k' ∈ ((capacityByTicketType rows).take i).map Prod.fst ∨ k' = k := by
    intro k'
    rw [List.take_add_one, List.getElem?_eq_getElem hlt, hget]
    simp
  refine ⟨hreleasing () rfl, ?_, fun k' => ?_⟩
  · rw [← List.drop_drop, h.rest]
    rfl
  · rw [hpools]
    rcases eq_or_ne k' k with rfl | hne
    · rw [hself, if_pos ((htake k').2 (.inr rfl)), owedTo_of_mem hnd hmem]
    · rw [hother k' hne, h.pools k']
      simp only [htake, hne, or_false]

omit [DecidableEq τ] in
theorem Looping.unwritten {rows : List ExpiredRow} {i : ℕ} {k : String} {q : ℤ}
    {rest : List (String × ℤ)} (h : Looping t rows i ((k, q) :: rest) db) :
    (db.pools.pending t).row k = none := by
  obtain ⟨hnd, -⟩ := keys_capacityByTicketType rows
  rw [h.pools k, if_neg]
  intro hk
  rw [← List.take_append_drop i (capacityByTicketType rows), List.map_append,
    List.nodup_append'] at hnd
  exact hnd.2.2 hk (by simp [h.rest])

/-- Under the ledger, LEAST and GREATEST have nothing to clamp. -/
theorem Looping.released {rows : List ExpiredRow} {i : ℕ} {k : String} {q : ℤ}
    {rest : List (String × ℤ)} {p p' : PoolRow} (h : Looping t rows i ((k, q) :: rest) db)
    (hrow : (db.pools.view t).row k = some p) (hfree : db.pools.Free t k)
    (hp : p' = { p with
      availableQty := min p.totalCapacity (p.availableQty + q)
      reservedQty := max 0 (p.reservedQty - q) }) (hcheck : p'.violated = none) :
    SeatGuarantee t db
        { db with
          pools := db.pools.write t k p'
          poolLog := db.poolLog ++ [.released p p' q] }
      ∧ Looping t rows (i + 1) rest
        { db with
          pools := db.pools.write t k p'
          poolLog := db.poolLog ++ [.released p p' q] } := by
  have hs : releaseCapacity t k q db = some (.ok (), { db with
      pools := db.pools.write t k p'
      poolLog := db.poolLog ++ [.released p p' q] }) := by
    simp only [releaseCapacity, hrow, hfree, if_true, writePool, ← hp, hcheck]
  obtain ⟨hG, -⟩ := releaseCapacity_spec h.releasing hs
  have hunwritten := h.unwritten
  have hcommitted : db.pools.committed.row k = some p := by
    rwa [TxTable.view, Table.overlay_row_of_none hunwritten] at hrow
  have hexact : p' = p.shift (-q) := by
    obtain ⟨ha, hr⟩ := (hG.inv h.releasing.2.inv).log (.released p p' q) (by simp)
    rw [PoolRow.shift, sub_neg_eq_add, ← sub_eq_add_neg, ← ha, ← hr, hp]
  refine ⟨hG, h.release hs rfl (fun k' hne => ?_) ?_⟩
  · rw [TxTable.write_pending_self, Table.set_row, if_neg hne]
  · rw [TxTable.write_pending_self, Table.set_row_self, hcommitted, hexact]
    rfl

omit [DecidableEq τ] in
theorem standing_loop {env : ExpiryEnv} {n : ℤ} {scope : Option String} {rows : List ExpiredRow}
    {i : ℕ} {m : List (String × ℤ)} (hm : MarkedRows t env.now (truthy scope) n rows db)
    (hl : Looping t rows i m db) :
    Standing t (.call (.expirePendingReservations env n scope)) (.loop i rows m) db := by
  rcases m with _ | ⟨⟨k, q⟩, m⟩
  · exact ⟨hm, i, hl⟩
  · exact ⟨hm, hl⟩

omit [DecidableEq τ] in
/-- A call that begins its commit without having selected anything. -/
theorem Idle.nothing {env : ExpiryEnv} {n : ℤ} {scope : Option String} (h : Idle t db)
    (hn : 0 ≤ n) :
    Standing t (.call (.expirePendingReservations env n scope)) (.commitExpiry []) db := by
  refine ⟨⟨by simp, by simpa using hn, by simp, fun id _ => by simp [h.reservations]⟩, 0,
    ⟨by simp, ?_⟩, rfl, fun k => ?_⟩
  · simpa [owedTo, Pi.zero_def] using h.owes
  · simp [h.pools]

/-- A hold introduced with its seats. -/
theorem Idle.introduce {id u k : String} {q : ℤ} {expiresAt : Time} {p : PoolRow} (h : Idle t db)
    (hq : 0 < q) (hpool : db.pools.Free t k) (hfree : db.reservations.Free t id)
    (hp : db.pools.committed.row k = some p) (hrow : db.reservations.committed.row id = none)
    (hle : q ≤ p.availableQty) :
    SeatGuarantee t db
        { db with
          pools := (db.pools.write t k (p.shift q)).commit t
          reservations := (db.reservations.write t id
            ⟨u, k, q, .pending, expiresAt, hq⟩).commit t }
      ∧ Idle t
        { db with
          pools := (db.pools.write t k (p.shift q)).commit t
          reservations := (db.reservations.write t id
            ⟨u, k, q, .pending, expiresAt, hq⟩).commit t } := by
  set r : ReservationRow := ⟨u, k, q, .pending, expiresAt, hq⟩
  have hO := h.owes_insert (r := r) hfree hrow trivial
  have hsum := hO.unwritten k (by simp [hp]) (by simp [h.pools])
  rw [Pi.single_eq_same] at hsum
  have hO' : Owes t 0 { db with
      pools := db.pools.write t k (p.shift q)
      reservations := db.reservations.write t id r } := by
    refine hO.writePool hpool hp (by omega) ?_ fun k' hk' => ?_
    · rw [Pi.zero_apply, add_zero]
      exact hsum
    · rw [Pi.zero_apply, Pi.single_eq_of_ne hk']
  set db₁ : Db τ := { db with reservations := db.reservations.write t id r }
  have hpool₁ : db₁.pools.Free t k := hpool
  have hG := (guarantee_writeReservation hfree r).trans (guarantee_writePool hpool₁ (p.shift q))
  exact ⟨hG.trans (guarantee_commit hO'), idle_commit hO'⟩

theorem Standing.move {a : SeatAction} {p p' : SeatPhase} (h : Standing t a p db)
    (hm : SeatMove t db a p db' p') : SeatGuarantee t db db' ∧ Standing t a p' db' := by
  cases hm with
  | begin => exact ⟨guarantee_refl t db, h⟩
  | beginScan => exact ⟨guarantee_refl t db, h⟩
  | missing hrow =>
    have hI : Idle t db := h
    rw [hI.view_pools] at hrow
    exact ⟨guarantee_refl t db, hI, .inl hrow⟩
  | locked hrow hfree => exact ⟨guarantee_lockPool hfree, .lock h hrow hfree⟩
  | inserted hq hfree hrow => exact ⟨guarantee_writeReservation hfree _, h.insert hq hfree hrow⟩
  | updated hrow hfree hq hcheck =>
    exact ⟨guarantee_writePool hfree _, h.update hrow hfree hq hcheck⟩
  | missed hrow =>
    -- the row has not changed since it was found to have enough
    obtain ⟨p₀, -, hb, hpending⟩ := h
    have hlt := hrow p₀ (by rw [TxTable.view, hpending, Table.overlay_empty, hb.row])
    have hle := hb.enough
    omega
  | scanned hn hb =>
    obtain ⟨hG, hI, hpicked⟩ := Standing.scan h hn hb
    refine ⟨hG, ?_⟩
    split_ifs with hnil
    · exact hI.nothing hn
    · exact ⟨hI, hpicked⟩
  | marked hperm hfree =>
    obtain ⟨hG, hmarked, hl⟩ := Standing.mark h hperm hfree
    exact ⟨hG, standing_loop hmarked hl⟩
  | @unpooled _ _ _ _ _ k q _ hrow =>
    obtain ⟨hmarked, hl⟩ := h
    have hs : releaseCapacity t k q db = some (.ok (), db) := by
      simp only [releaseCapacity, hrow]
    obtain ⟨hp, hc⟩ := Option.or_eq_none_iff.1 hrow
    refine ⟨guarantee_refl t db, standing_loop hmarked (hl.release hs rfl (fun _ _ => rfl) ?_)⟩
    rw [hp, hc]
    rfl
  | released hrow hfree hp hcheck =>
    obtain ⟨hmarked, hl⟩ := h
    obtain ⟨hG, hl'⟩ := hl.released hrow hfree hp hcheck
    exact ⟨hG, standing_loop ⟨hmarked.nodup, hmarked.length, hmarked.row, hmarked.other⟩ hl'⟩
  | committedReserve hp =>
    obtain ⟨hO, -⟩ := h
    refine ⟨guarantee_commit hO, ?_⟩
    rcases hp with rfl | ⟨-, rfl⟩ <;> exact idle_commit hO
  | committedExpiry hp =>
    obtain ⟨-, i, hl⟩ := h
    refine ⟨guarantee_commit hl.owes, ?_⟩
    rcases hp with rfl | ⟨-, rfl⟩ <;> exact idle_commit hl.owes
  | rejected hp =>
    refine ⟨guarantee_rollback t db, ?_⟩
    rcases hp with rfl | ⟨-, rfl⟩ <;> exact idle_rollback h.inv t
  | @aborted c _ _ _ hm =>
    obtain ⟨hG, hI⟩ := idle_of_catching h hm
    exact ⟨hG, by cases c <;> exact hI⟩
  | @caught c => exact ⟨guarantee_rollback t db, by cases c <;> exact idle_rollback h.inv t⟩
  | introduced hq hpool hfree hp hrow hle => exact Idle.introduce h hq hpool hfree hp hrow hle
  | refused => exact ⟨guarantee_refl t db, h⟩

/-- Along every trace the committed ledger is whole, and each transaction has written what its phase
says. -/
theorem standing_of_trace {actions : τ → SeatAction} {P : Table String PoolRow}
    {R : Table String ReservationRow} (hledger : SeatLedger P R) {h : List (Taken τ (Db τ))}
    (ht : (seats actions).Trace (Db.ofTables P R) h db) :
    SeatInv db ∧ ∀ t, Standing t (actions t) ((seats actions).phases h t) db := by
  induction ht with
  | nil =>
    refine ⟨inv_ofTables hledger, fun t => ?_⟩
    have hI := idle_ofTables (τ := τ) hledger t
    rcases actions t with ⟨_ | _⟩ | _ <;> exact hI
  | @snoc h db db' t p ht hm ih =>
    obtain ⟨hG, hstanding⟩ := (ih.2 t).move (.of_move hm)
    refine ⟨hG.inv ih.1, fun t' => ?_⟩
    rw [Machine.phases_snoc, Machine.advance_of_move hm]
    rcases eq_or_ne t' t with rfl | hne
    · rwa [Function.update_self]
    · rw [Function.update_of_ne hne]
      exact stable_standing _ _ _ _ (ih.2 t') ⟨t, hne, hG⟩

end LaunchPad
