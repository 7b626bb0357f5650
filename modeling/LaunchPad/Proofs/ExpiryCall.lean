import LaunchPad.Proofs.HeldSeats
import LaunchPad.Proofs.Partition

/-!
# One expiring call on its own

With no transaction open, a call of `expirePendingReservations` that returns has expired a batch of
the rows that are due (`expirePendingReservations_scans`). The tables it leaves are a function of
the set of those rows: `expireRows` of the reservations, and under the ledger `returnSeats` of the
pools. Under the ledger there is a call that returns (`exists_scan`).
-/

namespace LaunchPad

open Interleave Rows
open scoped BigOperators

/-- The rows that are due. -/
def eligible (R : Table String ReservationRow) (now : Time) (scope : Option String) :
    Finset String :=
  R.keys.filter fun id => (R.row id).any (fun r => decide (r.Expirable now scope)) = true

/-- The reservations with these rows EXPIRED. -/
def expireRows (R : Table String ReservationRow) (ids : Finset String) :
    Table String ReservationRow :=
  R.mapRows fun id r => if id ∈ ids then { r with status := .expired } else r

/-- The pools with the seats of these rows available again. -/
def returnSeats (P : Table String PoolRow) (R : Table String ReservationRow) (ids : Finset String) :
    Table String PoolRow :=
  P.mapRows fun k p => p.shift (-∑ id ∈ ids, seatsOf R k id)

theorem mem_eligible {R : Table String ReservationRow} {now : Time} {scope : Option String}
    {id : String} : id ∈ eligible R now scope ↔ ∃ r, R.row id = some r ∧ r.Expirable now scope := by
  simp only [eligible, Finset.mem_filter, Option.any_eq_true, decide_eq_true_eq]
  refine ⟨fun h => h.2, fun h => ⟨?_, h⟩⟩
  obtain ⟨r, hr, -⟩ := h
  exact Table.mem_keys_of_row hr

variable {τ : Type} [DecidableEq τ] {t : τ} {db db' : Db τ}

/-- What a call that returned `r` did, from a database with no transaction open: it expired the
rows `ids`, as many of those that are due as the batch holds. -/
structure Scanned (now : Time) (scope : Option String) (batchSize : ℤ) (ids : Finset String)
    (db : Db τ) (r : ExpiryResult) (db' : Db τ) : Prop where
  due : ids ⊆ eligible db.reservations.committed now scope
  card : (ids.card : ℤ) = min batchSize (eligible db.reservations.committed now scope).card
  count : r.expiredCount = ids.card
  released : r.releasedCapacity = ∑ id ∈ ids, quantityOf db.reservations.committed id
  nodup : r.processedIds.Nodup
  processed : r.processedIds.toFinset = ids
  quiet : Quiet db'
  reservations : db'.reservations.committed = expireRows db.reservations.committed ids
  pools : SeatInv db →
    SeatInv db' ∧ db'.pools.committed = returnSeats db.pools.committed db.reservations.committed ids

/-! ## The call, statement by statement -/

/-- What holds of the statements of the call holds of the call: `Scan` of the rows selected, and
`Loop` at the head of the loop. -/
theorem wp_expirePendingReservations {env : ExpiryEnv} {batchSize : ℤ} {scope : Option String}
    {Scan : List String → Db τ → Prop}
    {Loop : List ExpiredRow → ℕ → List (String × ℤ) → Db τ → Prop}
    {Q : ExpiryResult → Db τ → Prop}
    (hscan : (selectExpired t env.picked env.now (truthy scope) batchSize).wp (onOk Scan) db)
    (hmark : ∀ ids db, Scan ids db → (markExpired t ids env.returned).wp
      (onOk fun rows => Loop rows 0 (capacityByTicketType rows)) db)
    (hrelease : ∀ rows i k q m db, Loop rows i ((k, q) :: m) db →
      (releaseCapacity t k q).wp (onOk fun _ => Loop rows (i + 1) m) db)
    (hnone : ∀ db, Scan [] db → Q ⟨0, 0, []⟩ (db.commit t))
    (hdone : ∀ rows i db, Loop rows i [] db → Q (expiryResult rows) (db.commit t)) :
    (expirePendingReservations env t batchSize scope).wp (onOk Q) db := by
  have hcommit : ∀ (a : ExpiryResult) (db : Db τ), Q a (db.commit t) → (do
      Async.await ((tx t).commitTx env.onCommit)
      pure a : Async (Db τ) DbError ExpiryResult).wp
        (post Q fun _ _ => ∀ _ : DbError, True) db := by
    intro a db hQ
    rw [Async.wp_await_bind, TxEnds.wp_commitTx]
    exact ⟨fun _ => (Async.wp_pure a).2 hQ, fun _ => by simp, fun _ => by simp⟩
  have hall : ∀ (m : List (String × ℤ)) (n i : ℕ) (rows : List ExpiredRow) (db : Db τ),
      Loop rows i m db → (do
        releaseAll env t n m
        Async.await ((tx t).commitTx env.onCommit)
        pure (expiryResult rows) : Async (Db τ) DbError ExpiryResult).wp
          (post Q fun _ _ => ∀ _ : DbError, True) db := by
    intro m
    induction m with
    | nil => exact fun n i rows db h => hcommit _ db (hdone rows i db h)
    | cons e m ih =>
      obtain ⟨k, q⟩ := e
      intro n i rows db h
      rw [releaseAll, Async.bind_assoc]
      exact TxEnds.wp_statement_bind (fun _ => True) (hrelease rows i k q m db h)
        (fun _ db' h' => ih (n + 1) (i + 1) rows db' h') trivial (by simp)
  unfold expirePendingReservations
  refine TxEnds.wp_catch (TxEnds.wp_statement_bind (P := fun _ db₁ => db₁ = db) (fun _ => True)
    ((Sync.wp_pure ()).2 rfl) ?_ trivial (by simp))
  rintro _ db₀ hdb₀
  rw [hdb₀]
  refine TxEnds.wp_statement_bind (fun _ => True) hscan ?_ trivial (by simp)
  intro ids db₁ h₁
  split_ifs with hids
  · exact hcommit _ db₁ (hnone db₁ (hids ▸ h₁))
  refine TxEnds.wp_statement_bind (fun _ => True) (hmark ids db₁ h₁) ?_ trivial (by simp)
  exact fun rows db₂ h₂ => hall _ 0 0 rows db₂ h₂

/-! ## What it leaves -/

theorem Quiet.expirable_eq (h : Quiet db) (t : τ) (now : Time) (scope : Option String) :
    expirable db t now scope = eligible db.reservations.committed now scope := by
  unfold expirable eligible
  rw [h.view_reservations]
  exact Finset.filter_congr fun id _ => and_iff_left ((h.alone t).2.free id)

theorem Quiet.idle (h : Quiet db) (hinv : SeatInv db) (t : τ) : Idle t db :=
  ⟨hinv, by rw [h.1]; rfl, h.pending_reservations t⟩

theorem solo_lockReservations : ∀ {ids : List String} {V : TxTable τ String ReservationRow},
    TxTable.Solo t V → TxTable.Solo t (lockReservations t ids V)
  | [], _, h => h
  | id :: ids, V, h => by
    change TxTable.Solo t (lockReservations t ids (V.lock t id))
    exact solo_lockReservations (h.lock id)

theorem solo_expireRows : ∀ {ids : List String} {V : TxTable τ String ReservationRow},
    TxTable.Solo t V → TxTable.Solo t (ids.foldl (expireRow t) V)
  | [], _, h => h
  | id :: ids, V, h => by
    rw [List.foldl_cons]
    refine solo_expireRows ?_
    unfold expireRow
    split
    · exact h
    · exact h.write _ _

/-- Where the call stands after its scan, from `db` on. -/
structure Scanning (env : ExpiryEnv) (t : τ) (batchSize : ℤ) (scope : Option String) (db : Db τ)
    (ids : List String) (db₁ : Db τ) : Prop where
  picked : ids = env.picked
  batch : IsBatch (eligible db.reservations.committed env.now (truthy scope)) (expiryOf db t)
    batchSize.toNat ids
  limit : 0 ≤ batchSize
  alone : Alone t db₁
  pools : db₁.pools = db.pools
  committed : db₁.reservations.committed = db.reservations.committed
  pending : db₁.reservations.pending t = .empty
  selected : Picked t env.now (truthy scope) batchSize ids db₁
  idle : SeatInv db → Idle t db₁

/-- Where the call stands in its loop. -/
structure Returning (env : ExpiryEnv) (t : τ) (batchSize : ℤ) (scope : Option String) (db : Db τ)
    (rows : List ExpiredRow) (i : ℕ) (m : List (String × ℤ)) (db₁ : Db τ) : Prop where
  batch : IsBatch (eligible db.reservations.committed env.now (truthy scope)) (expiryOf db t)
    batchSize.toNat env.picked
  limit : 0 ≤ batchSize
  ids : (rows.map ExpiredRow.id).Perm env.picked
  alone : Alone t db₁
  pools : db₁.pools.committed = db.pools.committed
  committed : db₁.reservations.committed = db.reservations.committed
  marked : MarkedRows t env.now (truthy scope) batchSize rows db₁
  looping : SeatInv db → Looping t rows i m db₁

variable {env : ExpiryEnv} {batchSize : ℤ} {scope : Option String} {ids : List String}

theorem selectExpired_scanning (env : ExpiryEnv) (h : Quiet db) :
    (selectExpired t env.picked env.now (truthy scope) batchSize).wp
      (onOk (Scanning env t batchSize scope db)) db := by
  intro r db₁ hs
  rcases selectExpired_eq_some hs with ⟨rfl, rfl⟩ | ⟨hlimit, hb, rfl, rfl⟩
  · trivial
  · obtain ⟨-, -, hcommitted, hpending⟩ := lockReservations_facts (t := t) env.picked
      db.reservations fun id _ => (h.alone t).2.free id
    exact ⟨rfl, h.expirable_eq t env.now _ ▸ hb, hlimit,
      ⟨(h.alone t).1, solo_lockReservations (h.alone t).2⟩, rfl, hcommitted,
      (congrFun hpending t).trans (h.pending_reservations t),
      .of_batch (h.view_reservations t) hlimit hb,
      fun hinv => ((selectExpired_spec (h.idle hinv t) hs).2 _ rfl).1⟩

omit [DecidableEq τ] in
/-- Alone, the update marks every row that was selected. -/
theorem Scanning.pendingAmong_eq {db₁ : Db τ} (h : Scanning env t batchSize scope db ids db₁) :
    pendingAmong db₁ t ids = ids := by
  refine List.filter_eq_self.2 fun id hid => ?_
  obtain ⟨r, hr, hexp⟩ := h.selected.row id hid
  rw [TxTable.view, h.pending, Table.overlay_empty, hr]
  simpa using hexp.1

theorem Scanning.map_id {db₁ : Db τ} (h : Scanning env t batchSize scope db ids db₁)
    {returned : List String} (hperm : returned.Perm ids) :
    (returning db₁ t returned).map ExpiredRow.id = returned := by
  refine map_id_returning fun id hid => ?_
  obtain ⟨r, hr, -⟩ := h.selected.row id (hperm.mem_iff.1 hid)
  rw [TxTable.view, h.pending, Table.overlay_empty]
  exact ⟨r, hr⟩

theorem markExpired_returning {db₁ : Db τ} (h : Scanning env t batchSize scope db ids db₁) :
    (markExpired t ids env.returned).wp (onOk fun rows =>
      Returning env t batchSize scope db rows 0 (capacityByTicketType rows)) db₁ := by
  intro r db₂ hs
  obtain ⟨hperm, hfree, rfl, rfl⟩ := markExpired_eq_some hs
  have hperm' : env.returned.Perm ids := h.pendingAmong_eq ▸ hperm
  refine ⟨h.picked ▸ h.batch, h.limit, ?_, ⟨h.alone.1, solo_expireRows h.alone.2⟩,
    congrArg TxTable.committed h.pools, (committed_expireRows _ _).trans h.committed,
    h.selected.marked h.pending hperm, fun hinv => ?_⟩
  · rw [h.map_id hperm', ← h.picked]
    exact hperm'
  · exact (Standing.mark ⟨h.idle hinv, h.selected⟩ hperm hfree).2.2

/-- Other rows and the reservations are left by a turn of the loop. -/
theorem releaseCapacity_returning {rows : List ExpiredRow} {i : ℕ} {k : String} {q : ℤ}
    {m : List (String × ℤ)} {db₁ : Db τ}
    (h : Returning env t batchSize scope db rows i ((k, q) :: m) db₁) :
    (releaseCapacity t k q).wp
      (onOk fun _ => Returning env t batchSize scope db rows (i + 1) m) db₁ := by
  intro r db₂ hs
  rcases releaseCapacity_eq_some hs with ⟨rfl, hrow, rfl⟩ | ⟨p, p', hrow, hfree, hp, rfl, hcheck, rfl⟩
    | ⟨e, rfl, -⟩
  · refine ⟨h.batch, h.limit, h.ids, h.alone, h.pools, h.committed, h.marked, fun hinv => ?_⟩
    obtain ⟨hpending, hcommitted⟩ := Option.or_eq_none_iff.1 hrow
    refine (h.looping hinv).release hs rfl (fun _ _ => rfl) ?_
    rw [hpending, hcommitted]
    rfl
  · exact ⟨h.batch, h.limit, h.ids, ⟨h.alone.1.write k p', h.alone.2⟩, h.pools, h.committed,
      ⟨h.marked.nodup, h.marked.length, h.marked.row, h.marked.other⟩,
      fun hinv => ((h.looping hinv).released hrow hfree hp hcheck).2⟩
  · trivial

omit [DecidableEq τ] in
/-- What is owed to a pool is the seats of its rows. -/
theorem Returning.owedTo_eq {rows : List ExpiredRow} {i : ℕ} {m : List (String × ℤ)} {db₁ : Db τ}
    (h : Returning env t batchSize scope db rows i m db₁) (k : String) :
    owedTo (capacityByTicketType rows) k
      = ∑ id ∈ env.picked.toFinset, seatsOf db.reservations.committed k id := by
  have hsum := List.sum_toFinset (seatsOf db.reservations.committed k) h.batch.1
  rw [owedTo_capacityByTicketType, hsum, ← (h.ids.map _).sum_eq, List.map_map]
  refine congrArg List.sum (List.map_congr_left fun x hx => ?_)
  obtain ⟨r, hr, -, hx', -⟩ := h.marked.row x hx
  rw [Function.comp_apply, seatsOf, ← h.committed, hr, hx']
  rfl

omit [DecidableEq τ] in
theorem Returning.quantities {rows : List ExpiredRow} {i : ℕ} {m : List (String × ℤ)} {db₁ : Db τ}
    (h : Returning env t batchSize scope db rows i m db₁) :
    (rows.map ExpiredRow.quantity).sum
      = ∑ id ∈ env.picked.toFinset, quantityOf db.reservations.committed id := by
  rw [List.sum_toFinset _ h.batch.1, ← (h.ids.map _).sum_eq, List.map_map]
  refine congrArg List.sum (List.map_congr_left fun x hx => ?_)
  obtain ⟨r, hr, -, hx', -⟩ := h.marked.row x hx
  rw [Function.comp_apply, quantityOf, ← h.committed, hr, hx']
  rfl

/-- What the COMMIT leaves. -/
theorem Returning.scanned {rows : List ExpiredRow} {i : ℕ} {db₁ : Db τ}
    (h : Returning env t batchSize scope db rows i [] db₁) :
    Scanned env.now (truthy scope) batchSize env.picked.toFinset db (expiryResult rows)
      (db₁.commit t) := by
  obtain ⟨hnd, hmem, hlen, -⟩ := h.batch
  have hlimit := h.limit
  have hcard := List.toFinset_card_of_nodup hnd
  refine ⟨fun id hid => hmem id (List.mem_toFinset.1 hid), by omega, ?_, h.quantities,
    h.marked.nodup, List.toFinset_eq_of_perm _ _ h.ids, h.alone.quiet_commit, ?_, fun hinv => ?_⟩
  · rw [hcard, ← h.ids.length_eq, List.length_map]
    rfl
  · ext1 id
    change (db₁.reservations.view t).row id = _
    rw [h.marked.view_row, h.committed, expireRows, Table.mapRows_row]
    simp only [List.mem_toFinset, ← h.ids.mem_iff]
    split_ifs <;> simp
  · have hl := h.looping hinv
    refine ⟨inv_commit hl.owes, ?_⟩
    ext1 k
    change (db₁.pools.view t).row k = _
    rw [hl.view_row, h.pools, h.owedTo_eq]
    rfl

/-- A call that selects nothing leaves the tables as they are. -/
theorem Scanning.scanned_nil {db₁ : Db τ} (hdb : Quiet db)
    (h : Scanning env t batchSize scope db [] db₁) :
    Scanned env.now (truthy scope) batchSize env.picked.toFinset db ⟨0, 0, []⟩
      (db₁.commit t) := by
  have hlimit := h.limit
  obtain ⟨-, -, hlen, -⟩ := h.batch
  rw [List.length_nil] at hlen
  rw [← h.picked, List.toFinset_nil]
  refine ⟨Finset.empty_subset _, by simp; omega, rfl, rfl, List.nodup_nil, rfl,
    h.alone.quiet_commit, ?_, fun hinv => ⟨inv_commit (h.idle hinv).owes, ?_⟩⟩
  · ext1 id
    change (db₁.reservations.view t).row id = _
    rw [TxTable.view, h.pending, Table.overlay_empty, h.committed]
    simp [expireRows]
  · ext1 k
    change (db₁.pools.view t).row k = _
    rw [h.pools, TxTable.view, hdb.1]
    simp [returnSeats, PoolRow.shift, TxTable.ofTable]

/-- A call that returns has expired a batch of the rows that are due. -/
theorem expirePendingReservations_scans (env : ExpiryEnv) (t : τ) (batchSize : ℤ)
    (scope : Option String) (h : Quiet db) :
    (expirePendingReservations env t batchSize scope).wp
      (onOk (Scanned env.now (truthy scope) batchSize env.picked.toFinset db)) db :=
  wp_expirePendingReservations (selectExpired_scanning env h) (fun _ _ => markExpired_returning)
    (fun _ _ _ _ _ _ => releaseCapacity_returning) (fun _ h₁ => h₁.scanned_nil h)
    fun _ _ _ h₁ => h₁.scanned

/-! ## A call that returns -/

/-- Every statement is answered, and the rows come back as they were picked. -/
def ExpiryEnv.answered (now : Time) (ids : List String) : ExpiryEnv :=
  ⟨now, ids, ids, .answered, .answered, .answered, fun _ => .answered, .answered, .answered⟩

/-- Under the ledger no CHECK fires. -/
theorem releaseCapacity_answers {k : String} {q : ℤ} {m : List (String × ℤ)}
    (h : Releasing t ((k, q) :: m) db) (hfree : db.pools.Free t k) :
    ∃ db', releaseCapacity t k q db = some (.ok (), db') := by
  have hspec : ∀ r db', releaseCapacity t k q db = some (r, db') → SeatInv db' :=
    fun _ _ hs => (releaseCapacity_spec h hs).1.inv h.2.inv
  unfold releaseCapacity at hspec ⊢
  rcases hrow : (db.pools.view t).row k with _ | p <;> rw [hrow] at hspec
  · exact ⟨db, rfl⟩
  · simp only [hfree, if_true] at hspec ⊢
    unfold writePool at hspec ⊢
    split
    · rename_i c hc
      simp only [hc] at hspec
      exact absurd ((hspec _ _ rfl).log (.checkFired c) (by simp)) (by simp [PoolEvent.Exact])
    · exact ⟨_, rfl⟩

theorem releaseAll_answers (henv : ∀ n, env.onRelease n = .answered) (hinv : SeatInv db)
    {rows : List ExpiredRow} : ∀ {m : List (String × ℤ)} {n i : ℕ} {db₁ : Db τ},
    Returning env t batchSize scope db rows i m db₁ →
      ∃ db₂, (releaseAll env t n m).run db₁ = some (.ok (), db₂)
  | [], _, _, db₁, _ => ⟨db₁, rfl⟩
  | (k, q) :: m, n, i, db₁, h => by
    obtain ⟨db₂, hs⟩ := releaseCapacity_answers (h.looping hinv).releasing (h.alone.1.free k)
    obtain ⟨db₃, hrest⟩ := releaseAll_answers henv hinv (n := n + 1)
      (releaseCapacity_returning h _ _ hs)
    refine ⟨db₃, ?_⟩
    rw [releaseAll, Async.run_bind, Async.run_await, Sync.bind_apply, henv, TxEnds.statement, hs]
    exact hrest

/-- Under the ledger the database can answer every statement of a call. -/
theorem exists_scan (h : Quiet db) (hinv : SeatInv db) (t : τ) (now : Time) (scope : Option String)
    (hn : 0 ≤ batchSize) : ∃ env r db', env.now = now ∧
      (expirePendingReservations env t batchSize scope).run db = some (.ok r, db') := by
  obtain ⟨picked, hb⟩ := exists_isBatch (expirable db t now (truthy scope)) (expiryOf db t)
    batchSize.toNat
  have hsel : selectExpired t picked now (truthy scope) batchSize db = some (.ok picked,
      { db with reservations := lockReservations t picked db.reservations }) := by
    rw [selectExpired, if_neg (not_lt.2 hn), if_pos hb]
  have hscan := selectExpired_scanning (.answered now picked) h _ _ hsel
  refine ⟨.answered now picked, ?_⟩
  rcases eq_or_ne picked [] with rfl | hne
  · refine ⟨⟨0, 0, []⟩, db.commit t, rfl, ?_⟩
    simp only [expirePendingReservations, Async.run_tryCatch, Async.run_bind, Async.run_await,
      Sync.tryCatch_apply, Sync.bind_apply, TxEnds.beginTx, TxEnds.statement, TxEnds.commitTx,
      ExpiryEnv.answered, Sync.pure_apply, hsel, if_true, Async.run_pure]
    rfl
  · set db₁ : Db τ := { db with reservations := lockReservations t picked db.reservations }
    have hmark : markExpired t picked picked db₁ = some (.ok (returning db₁ t picked),
        { db₁ with reservations := picked.foldl (expireRow t) db₁.reservations }) := by
      rw [markExpired, if_pos]
      exact ⟨by rw [hscan.pendingAmong_eq], fun id _ => hscan.alone.2.free id⟩
    have hret := markExpired_returning hscan _ _ hmark
    obtain ⟨db₃, hall⟩ := releaseAll_answers (n := 0) (fun _ => rfl) hinv hret
    unfold ExpiryEnv.answered at hall ⊢
    refine ⟨expiryResult (returning db₁ t picked), db₃.commit t, rfl, ?_⟩
    simp only [expirePendingReservations, Async.run_tryCatch, Async.run_bind, Async.run_await,
      Sync.tryCatch_apply, Sync.bind_apply, TxEnds.beginTx, TxEnds.statement, TxEnds.commitTx,
      Sync.pure_apply, hsel, hne, if_false, hmark, hall, Async.run_pure]
    rfl

end LaunchPad
