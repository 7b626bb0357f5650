import LaunchPad.Proofs.Standing

/-!
# The locks of an open transaction

Which rows a call has locked, and what it has read under its locks, is told by where it stands
(`Holding`), whatever the pools and the reservations amount to: this needs no ledger. A
`reserveAtomic` call has locked its pool, an expiring one the rows it selected and the pools of the
first entries of its map, in the order in which the UPDATE returned them.
-/

namespace LaunchPad

open Interleave Rows

/-- The rows with these ids, as `RETURNING` gives them. -/
def rowsOf (T : Table String ReservationRow) (ids : List String) : List ExpiredRow :=
  ids.filterMap fun id => (T.row id).map fun r => ⟨id, r.ticketTypeId, r.quantity⟩

/-- The pools a call may have locked where it stands. -/
def SeatPhase.poolsHeld : SeatCall → SeatPhase → List String
  | .reserveAtomic _ k _ _, .insert => [k]
  | .reserveAtomic _ k _ _, .update => [k]
  | .reserveAtomic _ k _ _, .commitReserve => [k]
  | .reserveAtomic _ k _ _, .reject => [k]
  | .expirePendingReservations .., .release i rows _ _ _ =>
    ((capacityByTicketType rows).take i).map Prod.fst
  | .expirePendingReservations .., .commitExpiry rows => (capacityByTicketType rows).map Prod.fst
  | _, _ => []

variable {τ : Type} [DecidableEq τ] {t : τ} {db db' : Db τ} {R : Table String ReservationRow}

/-! ## What others leave -/

theorem frame_expireRow {V : TxTable τ String ReservationRow} {id : String} (hf : V.Free t id) :
    TxTable.Frame t V (expireRow t V id) := by
  unfold expireRow
  split
  · exact .refl t V
  · exact TxTable.frame_write hf _

theorem locked_expireRow {V : TxTable τ String ReservationRow} (hV : V.Locked) {id : String}
    (hf : V.Free t id) : (expireRow t V id).Locked := by
  unfold expireRow
  split
  · exact hV
  · exact TxTable.locked_write hV hf _

theorem free_expireRow {V : TxTable τ String ReservationRow} {id id' : String}
    (hf : V.Free t id') : (expireRow t V id).Free t id' := by
  unfold expireRow
  split
  · exact hf
  · exact TxTable.free_write hf _ _

theorem expireRows_frame : ∀ {ids : List String} {V : TxTable τ String ReservationRow},
    V.Locked → (∀ id ∈ ids, V.Free t id) →
      TxTable.Frame t V (ids.foldl (expireRow t) V) ∧ (ids.foldl (expireRow t) V).Locked
  | [], V, hV, _ => ⟨.refl t V, hV⟩
  | id :: ids, V, hV, hf => by
    have hid := hf id List.mem_cons_self
    have hrest : ∀ id' ∈ ids, (expireRow t V id).Free t id' := fun id' h' =>
      free_expireRow (hf id' (List.mem_cons_of_mem _ h'))
    obtain ⟨h₁, h₂⟩ := expireRows_frame (locked_expireRow hV hid) hrest
    exact ⟨(frame_expireRow hid).trans h₁, h₂⟩

theorem SeatMove.frame {c : SeatCall} {p p' : SeatPhase} (hdb : db.Locked)
    (hm : SeatMove t db (.call c) p db' p') : Db.Frame t db db' ∧ db'.Locked := by
  have hsame : Db.Frame t db db ∧ db.Locked := ⟨⟨.refl t _, .refl t _⟩, hdb⟩
  have hclose : ∀ log, Db.Frame t db (({ db with poolLog := log } : Db τ).rollback t)
      ∧ (({ db with poolLog := log } : Db τ).rollback t).Locked := fun _ =>
    ⟨⟨TxTable.frame_rollback _ t, TxTable.frame_rollback _ t⟩,
      TxTable.locked_rollback hdb.pools t, TxTable.locked_rollback hdb.reservations t⟩
  have hcommit : Db.Frame t db (db.commit t) ∧ (db.commit t).Locked :=
    ⟨⟨TxTable.frame_commit hdb.pools t, TxTable.frame_commit hdb.reservations t⟩,
      TxTable.locked_commit hdb.pools t, TxTable.locked_commit hdb.reservations t⟩
  cases hm with
  | locked _ hfree =>
    exact ⟨⟨TxTable.frame_lock hfree, .refl t _⟩, TxTable.locked_lock hdb.pools hfree,
      hdb.reservations⟩
  | inserted _ hfree =>
    exact ⟨⟨.refl t _, TxTable.frame_write hfree _⟩, hdb.pools,
      TxTable.locked_write hdb.reservations hfree _⟩
  | updated _ hfree =>
    exact ⟨⟨TxTable.frame_write hfree _, .refl t _⟩, TxTable.locked_write hdb.pools hfree _,
      hdb.reservations⟩
  | released _ hfree =>
    exact ⟨⟨TxTable.frame_write hfree _, .refl t _⟩, TxTable.locked_write hdb.pools hfree _,
      hdb.reservations⟩
  | scanned _ hb =>
    obtain ⟨h₁, h₂, -⟩ := lockReservations_facts (t := t) _ db.reservations
      fun id hid => (Finset.mem_filter.1 (hb.2.1 id hid)).2.2
    exact ⟨⟨.refl t _, h₁⟩, hdb.pools, h₂ hdb.reservations⟩
  | marked _ hfree =>
    obtain ⟨h₁, h₂⟩ := expireRows_frame hdb.reservations hfree
    exact ⟨⟨.refl t _, h₁⟩, hdb.pools, h₂⟩
  | committedReserve => exact hcommit
  | committedExpiry => exact hcommit
  | rejected => exact hclose _
  | aborted => exact hclose _
  | caught => exact hclose _
  | _ => exact hsame

/-! ## Holding -/

/-- Transaction `t` has written nothing. -/
structure Unwritten (t : τ) (db : Db τ) : Prop where
  pools : db.pools.pending t = .empty
  reservations : db.reservations.pending t = .empty

/-- Transaction `t` has the lock of the pool row `k`, which is `p`. -/
structure OnPool (t : τ) (k : String) (p : PoolRow) (db : Db τ) : Prop where
  lock : db.pools.lockedBy k = some t
  row : db.pools.committed.row k = some p

/-- What transaction `t` has read and written where it stands. -/
def HasWritten (R : Table String ReservationRow) (t : τ) (c : SeatCall) (p : SeatPhase)
    (db : Db τ) : Prop :=
  match c, p with
  | .reserveAtomic _ k q _, .insert => Unwritten t db ∧ ∃ p, OnPool t k p db ∧ q ≤ p.availableQty
  | .reserveAtomic env k q u, .update =>
    db.pools.pending t = .empty ∧ ∃ p, Booked t env k q u p db
  | .reserveAtomic env k q u, .commitReserve =>
    ∃ p, Booked t env k q u p db ∧ db.pools.pending t = Table.empty.set k (p.shift q)
  | .reserveAtomic _ k q _, .reject =>
    Unwritten t db
      ∧ (db.pools.committed.row k = none ∨ ∃ p, OnPool t k p db ∧ p.availableQty < q)
  | .expirePendingReservations .., .mark ids =>
    Unwritten t db ∧ ∀ id ∈ ids, db.reservations.lockedBy id = some t
  | .expirePendingReservations env _ _, .release i rows k q rest =>
    rows = rowsOf R env.returned ∧ (capacityByTicketType rows).drop i = (k, q) :: rest
  | .expirePendingReservations .., .commitExpiry _ => True
  | _, _ => Unwritten t db

/-- What transaction `t` has locked, read and written where it stands. -/
structure Holding (R : Table String ReservationRow) (t : τ) (c : SeatCall) (p : SeatPhase)
    (db : Db τ) : Prop where
  pools : ∀ k, db.pools.lockedBy k = some t → k ∈ p.poolsHeld c
  written : HasWritten R t c p db

omit [DecidableEq τ] in
theorem Unwritten.stable {t' : τ} (h : Unwritten t db) (ht : t ≠ t') (hF : Db.Frame t' db db') :
    Unwritten t db' :=
  ⟨(hF.pools.pending t ht).trans h.pools, (hF.reservations.pending t ht).trans h.reservations⟩

omit [DecidableEq τ] in
theorem OnPool.stable {k : String} {p : PoolRow} {t' : τ} (h : OnPool t k p db) (ht : t ≠ t')
    (hF : Db.Frame t' db db') : OnPool t k p db' :=
  ⟨(hF.pools.lockedBy k t ht).2 h.lock, (hF.pools.committed k t ht h.lock).trans h.row⟩

/-- The statements of the others leave it, if none of them makes a pool. -/
theorem Holding.stable {c : SeatCall} {p : SeatPhase} {t' : τ} (h : Holding R t c p db)
    (ht : t ≠ t') (hF : Db.Frame t' db db') (hdb : db.Locked)
    (hrows : ∀ k, db.pools.committed.row k = none → db'.pools.committed.row k = none) :
    Holding R t c p db' := by
  refine ⟨fun k hk => h.pools k ((hF.pools.lockedBy k t ht).1 hk), ?_⟩
  have hw := h.written
  unfold HasWritten at hw ⊢
  revert hw
  split <;> intro hw
  · obtain ⟨hU, p, hp, hq⟩ := hw
    exact ⟨hU.stable ht hF, p, hp.stable ht hF, hq⟩
  · obtain ⟨hpending, p, hb⟩ := hw
    exact ⟨(hF.pools.pending t ht).trans hpending, p, stable_booked ht hF hdb hb⟩
  · obtain ⟨p, hb, hpending⟩ := hw
    exact ⟨p, stable_booked ht hF hdb hb, (hF.pools.pending t ht).trans hpending⟩
  · obtain ⟨hU, hn | ⟨p, hp, hq⟩⟩ := hw
    · exact ⟨hU.stable ht hF, .inl (hrows _ hn)⟩
    · exact ⟨hU.stable ht hF, .inr ⟨p, hp.stable ht hF, hq⟩⟩
  · exact ⟨hw.1.stable ht hF, fun id hid => (hF.reservations.lockedBy id t ht).2 (hw.2 id hid)⟩
  · exact hw
  · trivial
  · exact hw.stable ht hF

/-- PENDING rows are as they were at first: a row is inserted ACTIVE, or marked EXPIRED. And a pool
is only updated. -/
structure PendingKept (R : Table String ReservationRow) (db : Db τ) : Prop where
  locked : db.Locked
  committed : ∀ id r, db.reservations.committed.row id = some r → r.status = .pending →
    R.row id = some r
  versions : ∀ t id r, (db.reservations.pending t).row id = some r → r.status ≠ .pending
  pools : ∀ t k p, (db.pools.pending t).row k = some p → db.pools.committed.row k ≠ none

omit [DecidableEq τ] in
theorem Unwritten.view_reservations (h : Unwritten t db) :
    db.reservations.view t = db.reservations.committed := by
  rw [TxTable.view, h.reservations, Table.overlay_empty]

omit [DecidableEq τ] in
theorem Unwritten.view_pools (h : Unwritten t db) : db.pools.view t = db.pools.committed := by
  rw [TxTable.view, h.pools, Table.overlay_empty]

omit [DecidableEq τ] in
theorem returning_eq {ids returned : List String} (hkept : PendingKept R db)
    (hU : Unwritten t db) (hperm : returned.Perm (pendingAmong db t ids)) :
    returning db t returned = rowsOf R returned := by
  unfold returning rowsOf
  refine List.filterMap_congr fun id hid => ?_
  have hpending := (List.mem_filter.1 (hperm.mem_iff.1 hid)).2
  rw [hU.view_reservations] at hpending ⊢
  obtain ⟨r, hr, hst⟩ := Option.any_eq_true _ _ |>.1 hpending
  rw [hr, hkept.committed id r hr (by simpa using hst)]

omit [DecidableEq τ] in
/-- Closed, a transaction holds nothing. -/
theorem holding_closed {c : SeatCall} {p : SeatPhase} (hlock : ∀ k, db.pools.lockedBy k ≠ some t)
    (hU : Unwritten t db) (hp : (∃ e, p = .catching e) ∨ ∃ r, p = .ended r) :
    Holding R t c p db := by
  refine ⟨fun k hk => absurd hk (hlock k), ?_⟩
  rcases hp with ⟨e, rfl⟩ | ⟨r, rfl⟩ <;> cases c <;> exact hU

theorem unwritten_rollback (db : Db τ) (t : τ) : Unwritten t (db.rollback t) :=
  ⟨TxTable.rollback_pending_self _ t, TxTable.rollback_pending_self _ t⟩

theorem unwritten_commit (db : Db τ) (t : τ) : Unwritten t (db.commit t) :=
  ⟨TxTable.commit_pending_self _ t, TxTable.commit_pending_self _ t⟩

omit [DecidableEq τ] in
theorem holding_loop {env : ExpiryEnv} {n : ℤ} {scope : Option String} {rows : List ExpiredRow}
    {i : ℕ} {m : List (String × ℤ)} (hrows : rows = rowsOf R env.returned)
    (hdrop : (capacityByTicketType rows).drop i = m)
    (hpools : ∀ k, db.pools.lockedBy k = some t →
      k ∈ ((capacityByTicketType rows).take i).map Prod.fst) :
    Holding R t (.expirePendingReservations env n scope) (.loop i rows m) db := by
  rcases m with _ | ⟨⟨k, q⟩, m⟩
  · refine ⟨fun k hk => ?_, trivial⟩
    have htake := List.take_of_length_le (List.drop_eq_nil_iff.1 hdrop)
    have hk' := hpools k hk
    rwa [htake] at hk'
  · exact ⟨hpools, hrows, hdrop⟩

/-- The next entry of the map is the last of its first `i + 1`. -/
theorem take_succ_of_drop {m : List (String × ℤ)} {i : ℕ} {k : String} {q : ℤ}
    {rest : List (String × ℤ)} (h : m.drop i = (k, q) :: rest) :
    m.take (i + 1) = m.take i ++ [(k, q)] ∧ m.drop (i + 1) = rest := by
  have hlt : i < m.length := by
    by_contra hge
    rw [List.drop_eq_nil_of_le (not_lt.1 hge)] at h
    simp at h
  have hget := List.drop_eq_getElem_cons hlt
  rw [h] at hget
  obtain ⟨he, hrest⟩ := List.cons.inj hget
  rw [List.take_add_one, List.getElem?_eq_getElem hlt, ← he]
  exact ⟨rfl, hrest.symm⟩

theorem Holding.move {c : SeatCall} {p p' : SeatPhase} (h : Holding R t c p db)
    (hkept : PendingKept R db) (hm : SeatMove t db (.call c) p db' p') :
    Holding R t c p' db' := by
  obtain ⟨hpools, hw⟩ := h
  cases hm with
  | begin => exact ⟨hpools, hw⟩
  | beginScan => exact ⟨hpools, hw⟩
  | @missing _ k _ _ hrow =>
    have hU : Unwritten t db := hw
    rw [hU.view_pools] at hrow
    exact ⟨fun k' hk' => by simpa [SeatPhase.poolsHeld] using hpools k' hk', hU, .inl hrow⟩
  | @locked _ k _ q p hrow hfree =>
    have hU : Unwritten t db := hw
    rw [hU.view_pools] at hrow
    have hlocks : ∀ k', (db.pools.lock t k).lockedBy k' = some t → k' ∈ [k] := by
      intro k' hk'
      rcases TxTable.eq_or_lockedBy_of_lock hk' with rfl | hk'
      · simp
      · simpa [SeatPhase.poolsHeld] using hpools k' hk'
    have hp : OnPool t k p { db with pools := db.pools.lock t k } :=
      ⟨TxTable.lock_lockedBy _ t k, hrow⟩
    split_ifs with hq
    · exact ⟨hlocks, ⟨hU.pools, hU.reservations⟩, .inr ⟨p, hp, hq⟩⟩
    · exact ⟨hlocks, ⟨hU.pools, hU.reservations⟩, p, hp, not_lt.1 hq⟩
  | inserted hq hfree hrow =>
    obtain ⟨hU, p, hp, hle⟩ := hw
    rw [hU.view_reservations] at hrow
    refine ⟨hpools, hU.pools, p, hle, hp.lock, hp.row, hrow, hq, ?_⟩
    rw [TxTable.write_pending_self, hU.reservations]
  | @updated _ k _ q p hrow hfree hq hcheck =>
    obtain ⟨hpending, p₀, hb⟩ := hw
    obtain rfl : p₀ = p := by
      rw [TxTable.view, hpending, Table.overlay_empty, hb.row] at hrow
      exact Option.some.inj hrow
    refine ⟨fun k' hk' => ?_, p₀, ⟨hb.enough, TxTable.lock_lockedBy _ t k, hb.row, hb.fresh,
      hb.pending⟩, ?_⟩
    · rcases TxTable.eq_or_lockedBy_of_lock hk' with rfl | hk'
      · simp [SeatPhase.poolsHeld]
      · exact hpools k' hk'
    · rw [TxTable.write_pending_self, hpending]
  | missed hrow =>
    obtain ⟨hpending, p₀, hb⟩ := hw
    have hlt := hrow p₀ (by rw [TxTable.view, hpending, Table.overlay_empty, hb.row])
    have hle := hb.enough
    omega
  | @scanned env _ _ hn hb =>
    have hU : Unwritten t db := hw
    obtain ⟨-, -, -, hpend⟩ := lockReservations_facts (t := t) env.picked db.reservations
      fun id hid => (Finset.mem_filter.1 (hb.2.1 id hid)).2.2
    have hnone : ∀ k, db.pools.lockedBy k ≠ some t := fun k hk => by
      simpa [SeatPhase.poolsHeld] using hpools k hk
    split_ifs with hnil
    · exact ⟨fun k hk => absurd hk (hnone k), trivial⟩
    · refine ⟨fun k hk => absurd hk (hnone k), ⟨hU.pools, ?_⟩, fun id hid => ?_⟩
      · rw [hpend, hU.reservations]
      · exact lockedBy_lockReservations (.inl hid)
  | marked hperm hfree =>
    refine holding_loop (returning_eq hkept hw.1 hperm) rfl fun k hk => ?_
    simpa [SeatPhase.poolsHeld] using hpools k hk
  | unpooled hrow =>
    obtain ⟨hrows, hdrop⟩ := hw
    obtain ⟨htake, hrest⟩ := take_succ_of_drop hdrop
    refine holding_loop hrows hrest fun k' hk' => ?_
    rw [htake, List.map_append]
    exact List.mem_append_left _ (hpools k' hk')
  | released hrow hfree hp hcheck =>
    obtain ⟨hrows, hdrop⟩ := hw
    obtain ⟨htake, hrest⟩ := take_succ_of_drop hdrop
    refine holding_loop hrows hrest fun k' hk' => ?_
    rw [htake, List.map_append]
    rcases TxTable.eq_or_lockedBy_of_lock hk' with rfl | hk'
    · simp
    · exact List.mem_append_left _ (hpools k' hk')
  | committedReserve hp =>
    exact holding_closed (TxTable.rollback_lockedBy_ne _ t) (unwritten_commit db t)
      (hp.elim (fun h => .inr ⟨_, h⟩) fun h => .inl ⟨_, h.2⟩)
  | committedExpiry hp =>
    exact holding_closed (TxTable.rollback_lockedBy_ne _ t) (unwritten_commit db t)
      (hp.elim (fun h => .inr ⟨_, h⟩) fun h => .inl ⟨_, h.2⟩)
  | rejected hp =>
    exact holding_closed (TxTable.rollback_lockedBy_ne _ t) (unwritten_rollback db t)
      (hp.elim (fun h => .inr ⟨_, h⟩) fun h => .inl ⟨_, h.2⟩)
  | aborted =>
    exact holding_closed (TxTable.rollback_lockedBy_ne _ t) (unwritten_rollback _ t) (.inl ⟨_, rfl⟩)
  | caught =>
    exact holding_closed (TxTable.rollback_lockedBy_ne _ t) (unwritten_rollback db t) (.inr ⟨_, rfl⟩)

/-! ## Traces -/

theorem versions_expireRows : ∀ (ids : List String) {V : TxTable τ String ReservationRow},
    (∀ id r, (V.pending t).row id = some r → r.status ≠ .pending) →
      ∀ id r, ((ids.foldl (expireRow t) V).pending t).row id = some r → r.status ≠ .pending
  | [], _, h => h
  | a :: ids, V, h => by
    refine versions_expireRows ids fun id r hr => ?_
    unfold expireRow at hr
    split at hr
    · exact h id r hr
    · rw [TxTable.write_pending_self, Table.set_row_eq_some] at hr
      rcases hr with ⟨-, rfl⟩ | ⟨-, hr⟩
      · simp
      · exact h id r hr

omit [DecidableEq τ] in
/-- What `t` sees of a pool is a committed one, or its own version of it. -/
theorem PendingKept.row_of_view (h : PendingKept R db) {k : String} {p : PoolRow}
    (hrow : (db.pools.view t).row k = some p) : db.pools.committed.row k ≠ none := by
  rcases hp : (db.pools.pending t).row k with _ | p'
  · rw [TxTable.view, Table.overlay_row_of_none hp] at hrow
    simp [hrow]
  · exact h.pools t k p' hp

omit [DecidableEq τ] in
/-- It is kept where the versions of `t` are as they should be and nothing is committed. -/
theorem PendingKept.of_versions (h : PendingKept R db) (hF : Db.Frame t db db') (hdb : db'.Locked)
    (hpools : db'.pools.committed = db.pools.committed)
    (hreservations : db'.reservations.committed = db.reservations.committed)
    (hv : ∀ id r, (db'.reservations.pending t).row id = some r → r.status ≠ .pending)
    (hp : ∀ k p, (db'.pools.pending t).row k = some p → db.pools.committed.row k ≠ none) :
    PendingKept R db' := by
  refine ⟨hdb, fun id r hr => h.committed id r (hreservations ▸ hr), fun t' id r hr => ?_,
    fun t' k p hr => ?_⟩
  · rcases eq_or_ne t' t with rfl | hne
    · exact hv id r hr
    · exact h.versions t' id r (hF.reservations.pending t' hne ▸ hr)
  · rw [hpools]
    rcases eq_or_ne t' t with rfl | hne
    · exact hp k p hr
    · exact h.pools t' k p (hF.pools.pending t' hne ▸ hr)

theorem PendingKept.commit (h : PendingKept R db) (t : τ) : PendingKept R (db.commit t) := by
  have hrows : ∀ k, db.pools.committed.row k ≠ none → (db.pools.view t).row k ≠ none := by
    intro k hk hv
    exact hk (Option.or_eq_none_iff.1 hv).2
  refine ⟨⟨TxTable.locked_commit h.locked.pools t, TxTable.locked_commit h.locked.reservations t⟩,
    fun id r hr hst => ?_, fun t' id r hr => ?_, fun t' k p hr => ?_⟩
  · change (db.reservations.view t).row id = some r at hr
    rcases hp : (db.reservations.pending t).row id with _ | r'
    · rw [TxTable.view, Table.overlay_row_of_none hp] at hr
      exact h.committed id r hr hst
    · obtain rfl : r' = r := by simpa [TxTable.view, hp] using hr
      exact absurd hst (h.versions t id r' hp)
  · rcases eq_or_ne t' t with rfl | hne
    · rw [(unwritten_commit db t').reservations] at hr
      simp at hr
    · exact h.versions t' id r ((TxTable.frame_rollback db.reservations t).pending t' hne ▸ hr)
  · rcases eq_or_ne t' t with rfl | hne
    · rw [(unwritten_commit db t').pools] at hr
      simp at hr
    · exact hrows k (h.pools t' k p ((TxTable.frame_rollback db.pools t).pending t' hne ▸ hr))

theorem PendingKept.move {c : SeatCall} {p p' : SeatPhase} (h : PendingKept R db)
    (hm : SeatMove t db (.call c) p db' p') : PendingKept R db' := by
  obtain ⟨hF, hdb⟩ := hm.frame h.locked
  have hclose : ∀ log, PendingKept R (({ db with poolLog := log } : Db τ).rollback t) := fun log =>
    h.of_versions ⟨TxTable.frame_rollback _ t, TxTable.frame_rollback _ t⟩
      ⟨TxTable.locked_rollback h.locked.pools t, TxTable.locked_rollback h.locked.reservations t⟩
      rfl rfl (fun id r hr => by rw [(unwritten_rollback _ t).reservations] at hr; simp at hr)
      fun k p hr => by rw [(unwritten_rollback _ t).pools] at hr; simp at hr
  have hwrite : ∀ {k p₀ p₁}, (db.pools.view t).row k = some p₀ →
      ∀ k' p, ((db.pools.write t k p₁).pending t).row k' = some p →
        db.pools.committed.row k' ≠ none := by
    intro k p₀ p₁ hrow k' p hr
    rw [TxTable.write_pending_self, Table.set_row_eq_some] at hr
    rcases hr with ⟨rfl, -⟩ | ⟨-, hr⟩
    · exact h.row_of_view hrow
    · exact h.pools t k' p hr
  cases hm with
  | locked => exact h.of_versions hF hdb rfl rfl (h.versions t) (h.pools t)
  | inserted =>
    refine h.of_versions hF hdb rfl rfl (fun id r hr => ?_) (h.pools t)
    rw [TxTable.write_pending_self, Table.set_row_eq_some] at hr
    rcases hr with ⟨-, rfl⟩ | ⟨-, hr⟩
    · simp
    · exact h.versions t id r hr
  | updated hrow => exact h.of_versions hF hdb rfl rfl (h.versions t) (hwrite hrow)
  | released hrow => exact h.of_versions hF hdb rfl rfl (h.versions t) (hwrite hrow)
  | scanned _ hb =>
    obtain ⟨-, -, -, hpend⟩ := lockReservations_facts (t := t) _ db.reservations
      fun id hid => (Finset.mem_filter.1 (hb.2.1 id hid)).2.2
    refine h.of_versions hF hdb rfl (committed_lockReservations _ _) (fun id r hr => ?_) (h.pools t)
    rw [hpend] at hr
    exact h.versions t id r hr
  | marked =>
    exact h.of_versions hF hdb rfl (committed_expireRows _ _) (versions_expireRows _ (h.versions t))
      (h.pools t)
  | committedReserve => exact h.commit t
  | committedExpiry => exact h.commit t
  | rejected => exact hclose _
  | aborted => exact hclose _
  | caught => exact hclose _
  | _ => exact h

theorem PendingKept.none_of_move {c : SeatCall} {p p' : SeatPhase} (h : PendingKept R db)
    (hm : SeatMove t db (.call c) p db' p') {k : String} (hk : db.pools.committed.row k = none) :
    db'.pools.committed.row k = none := by
  have hview : (db.pools.view t).row k = none := by
    rcases hv : (db.pools.view t).row k with _ | p
    · rfl
    · exact absurd hk (h.row_of_view hv)
  cases hm.committed with
  | kept hpools => rw [hpools, hk]
  | reserve => exact hview
  | expiry => exact hview

/-- Along every trace, each call has locked and written what its phase says. -/
theorem holding_of_trace {calls : τ → SeatCall} {P : Table String PoolRow}
    {h : List (Taken τ (Db τ))}
    (ht : (seats fun t => .call (calls t)).Trace (Db.ofTables P R) h db) :
    PendingKept R db ∧ ∀ t, Holding R t (calls t)
      ((seats fun t => .call (calls t)).phases h t) db := by
  induction ht with
  | nil =>
    refine ⟨⟨⟨TxTable.locked_ofTable P, TxTable.locked_ofTable R⟩, fun _ _ hr _ => hr,
      fun t id r hr => by simp [Db.ofTables, TxTable.ofTable] at hr,
      fun t k p hr => by simp [Db.ofTables, TxTable.ofTable] at hr⟩, fun t => ⟨fun k hk => ?_, ?_⟩⟩
    · simp [Db.ofTables, TxTable.ofTable] at hk
    · have hU : Unwritten t (Db.ofTables P R) := ⟨rfl, rfl⟩
      cases calls t <;> exact hU
  | @snoc h db db' t p ht hm ih =>
    have hmove := SeatMove.of_move (a := .call (calls t)) hm
    obtain ⟨hkept, hholding⟩ := ih
    refine ⟨hkept.move hmove, fun t' => ?_⟩
    rw [Machine.phases_snoc, Machine.advance_of_move hm]
    rcases eq_or_ne t' t with rfl | hne
    · rw [Function.update_self]
      exact (hholding t').move hkept hmove
    · rw [Function.update_of_ne hne]
      exact (hholding t').stable hne (hmove.frame hkept.locked).1 hkept.locked
        fun _ => hkept.none_of_move hmove

end LaunchPad
