import LaunchPad.Proofs.Standing

/-!
# Expiring calls share the work out

A row is EXPIRED by the COMMIT of a call that has its lock, and stays so. So the calls that commit
expire different rows, each those it returns, and a pool gets back just the seats of its rows.
-/

namespace LaunchPad

open Interleave Rows

/-- The rows that are PENDING in one table and EXPIRED in the other. -/
def newlyExpired (T T' : Table String ReservationRow) : Finset String :=
  T.keys.filter fun id =>
    (T.row id).any (fun r => decide (r.status = .pending)) = true
      ∧ (T'.row id).any (fun r => decide (r.status = .expired)) = true

theorem mem_newlyExpired {T T' : Table String ReservationRow} {id : String} :
    id ∈ newlyExpired T T' ↔ (∃ r, T.row id = some r ∧ r.status = .pending)
      ∧ ∃ r, T'.row id = some r ∧ r.status = .expired := by
  simp only [newlyExpired, Finset.mem_filter, Option.any_eq_true, decide_eq_true_eq]
  refine ⟨fun h => h.2, fun h => ⟨?_, h⟩⟩
  obtain ⟨r, hr, -⟩ := h.1
  exact Table.mem_keys_of_row hr

@[simp] theorem newlyExpired_self (T : Table String ReservationRow) : newlyExpired T T = ∅ := by
  ext id
  simp only [mem_newlyExpired, Finset.notMem_empty, iff_false, not_and]
  rintro ⟨r, hr, hp⟩ ⟨r', hr', he⟩
  rw [hr] at hr'
  obtain rfl := Option.some.inj hr'
  simp [hp] at he

def quantityOf (R : Table String ReservationRow) (id : String) : ℤ :=
  (R.row id).elim 0 ReservationRow.quantity

/-- The seats of the ticket type that the row is for. -/
def seatsOf (R : Table String ReservationRow) (ticketTypeId id : String) : ℤ :=
  (R.row id).elim 0 fun r => if r.ticketTypeId = ticketTypeId then r.quantity else 0

variable {τ : Type} [DecidableEq τ]

/-- The rows a step takes from PENDING to EXPIRED. -/
def expiredBy (s : Taken τ (Db τ)) : Finset String :=
  newlyExpired s.before.reservations.committed s.after.reservations.committed

section Calls

variable (env : τ → ExpiryEnv) (batchSize : τ → ℤ) (scope : τ → Option String)

/-- Only expiring calls. -/
def expiryCalls (t : τ) : SeatCall := .expirePendingReservations (env t) (batchSize t) (scope t)

/-- What a call returned, of the rows it has expired. -/
structure Accounted (R : Table String ReservationRow) (h : List (Taken τ (Db τ))) (t : τ)
    (r : ExpiryResult) : Prop where
  count : r.expiredCount = r.processedIds.length
  limit : (r.expiredCount : ℤ) ≤ batchSize t
  nodup : r.processedIds.Nodup
  released : r.releasedCapacity = (r.processedIds.map (quantityOf R)).sum
  ids : ∀ id, id ∈ r.processedIds ↔ ∃ s ∈ stepsOf t h, id ∈ expiredBy s

/-- What the calls have done, from the tables `P` and `R` on. -/
structure Partitioned (P : Table String PoolRow) (R : Table String ReservationRow)
    (h : List (Taken τ (Db τ))) (c : Config τ (Db τ) DbError SeatReply) : Prop where
  once : h.Pairwise fun s s' => Disjoint (expiredBy s) (expiredBy s')
  due : ∀ s ∈ h, ∀ id ∈ expiredBy s, ∀ r, s.before.reservations.committed.row id = some r →
    r.expiresAt < (env s.thread).now
  size : ∀ s ∈ h, (expiredBy s).card ≤ (batchSize s.thread).toNat
  accounted : ∀ t r, (c.thread t).result = some (.ok (.expirePendingReservations r)) →
    Accounted batchSize R h t r
  disjoint : ∀ t t' r r', t ≠ t' →
    (c.thread t).result = some (.ok (.expirePendingReservations r)) →
    (c.thread t').result = some (.ok (.expirePendingReservations r')) →
    r.processedIds.Disjoint r'.processedIds
  expired : ∀ id, id ∈ newlyExpired R c.world.reservations.committed ↔ ∃ s ∈ h, id ∈ expiredBy s
  pools : ∀ k p, P.row k = some p → ∃ p', c.world.pools.committed.row k = some p'
    ∧ p'.availableQty = p.availableQty
      + ∑ id ∈ newlyExpired R c.world.reservations.committed, seatsOf R k id

end Calls

/-! ## A COMMIT -/

section Commit

variable {t : τ} {db : Db τ} {now : Time} {scope : Option String} {limit : ℤ}
  {rows : List ExpiredRow}

omit [DecidableEq τ] in
theorem MarkedRows.view_row (h : MarkedRows t now scope limit rows db) (id : String) :
    (db.reservations.view t).row id = if id ∈ rows.map ExpiredRow.id then
        (db.reservations.committed.row id).map fun r => { r with status := .expired }
      else db.reservations.committed.row id := by
  split_ifs with hid
  · obtain ⟨x, hx, rfl⟩ := List.mem_map.1 hid
    obtain ⟨r, hr, -, -, hp⟩ := h.row x hx
    simp [TxTable.view, hp, hr]
  · rw [TxTable.view, Table.overlay_row_of_none (h.other id hid)]

/-- The rows the call has marked are those its COMMIT expires. -/
theorem MarkedRows.expiredBy_commit (h : MarkedRows t now scope limit rows db) (id : String) :
    id ∈ expiredBy ⟨t, db, db.commit t⟩ ↔ id ∈ rows.map ExpiredRow.id := by
  rw [expiredBy, mem_newlyExpired]
  change (_ ∧ ∃ r, (db.reservations.view t).row id = some r ∧ _) ↔ _
  rw [h.view_row]
  constructor
  · rintro ⟨⟨r, hr, hp⟩, r', hr', he⟩
    by_contra hid
    rw [if_neg hid, hr] at hr'
    obtain rfl := Option.some.inj hr'
    simp [hp] at he
  · intro hid
    obtain ⟨x, hx, rfl⟩ := List.mem_map.1 hid
    obtain ⟨r, hr, hexp, -⟩ := h.row x hx
    exact ⟨⟨r, hr, hexp.1⟩, { r with status := .expired }, by rw [if_pos hid, hr]; rfl, rfl⟩

theorem MarkedRows.expiredBy_commit_eq (h : MarkedRows t now scope limit rows db) :
    expiredBy ⟨t, db, db.commit t⟩ = (rows.map ExpiredRow.id).toFinset := by
  ext id
  rw [h.expiredBy_commit, List.mem_toFinset]

theorem MarkedRows.card_le (h : MarkedRows t now scope limit rows db) :
    (expiredBy ⟨t, db, db.commit t⟩).card ≤ limit.toNat := by
  have hlen := h.length
  rw [h.expiredBy_commit_eq, List.toFinset_card_of_nodup h.nodup, List.length_map]
  omega

omit [DecidableEq τ] in
/-- A pool as the call sees it at its COMMIT. -/
theorem Looping.view_row {i : ℕ} (h : Looping t rows i [] db) (k : String) :
    (db.pools.view t).row k = (db.pools.committed.row k).map fun p =>
      p.shift (-owedTo (capacityByTicketType rows) k) := by
  have htake : (capacityByTicketType rows).take i = capacityByTicketType rows :=
    List.take_of_length_le (List.drop_eq_nil_iff.1 h.rest)
  have hpools := h.pools k
  rw [htake] at hpools
  by_cases hk : k ∈ (capacityByTicketType rows).map Prod.fst
  · rw [if_pos hk] at hpools
    rw [TxTable.view, Table.overlay_row, hpools]
    cases db.pools.committed.row k <;> rfl
  · rw [if_neg hk] at hpools
    have hzero : owedTo (capacityByTicketType rows) k = 0 := by
      refine List.sum_eq_zero fun x hx => ?_
      obtain ⟨e, he, rfl⟩ := List.mem_map.1 hx
      exact if_neg fun hek => hk (List.mem_map.2 ⟨e, he, hek⟩)
    rw [TxTable.view, Table.overlay_row_of_none hpools, hzero]
    cases db.pools.committed.row k <;> simp [PoolRow.shift]

end Commit

/-! ## Traces -/

section Traces

variable {env : τ → ExpiryEnv} {batchSize : τ → ℤ} {scope : τ → Option String}
  {P : Table String PoolRow} {R : Table String ReservationRow}

/-- A row is as it was, or was PENDING and is EXPIRED. -/
def Kept (R T : Table String ReservationRow) : Prop :=
  ∀ id, T.row id = R.row id ∨ ∃ r, R.row id = some r ∧ r.status = .pending
    ∧ T.row id = some { r with status := .expired }

theorem Kept.row_of_pending {T : Table String ReservationRow} (h : Kept R T) {id : String}
    {r : ReservationRow} (hr : T.row id = some r) (hp : r.status = .pending) :
    R.row id = some r := by
  rcases h id with he | ⟨r₀, -, -, he⟩
  · rw [← he, hr]
  · rw [hr] at he
    rw [Option.some.inj he] at hp
    simp at hp

/-- What the steps of a call tell of where it stands. -/
def SeatPhase.Recorded (R : Table String ReservationRow) (limit : ℤ)
    (steps : List (Taken τ (Db τ))) : SeatPhase → Prop
  | .catching _ => True
  | .ended (.error _) => True
  | .ended (.ok (.expirePendingReservations r)) => ∃ rows, r = expiryResult rows
      ∧ (rows.map ExpiredRow.id).Nodup ∧ (rows.length : ℤ) ≤ limit
      ∧ (∀ x ∈ rows, quantityOf R x.id = x.quantity)
      ∧ ∀ id, id ∈ rows.map ExpiredRow.id ↔ ∃ s ∈ steps, id ∈ expiredBy s
  | _ => ∀ s ∈ steps, expiredBy s = ∅

omit [DecidableEq τ] in
theorem recorded_loop {limit : ℤ} {steps : List (Taken τ (Db τ))} {i : ℕ} {rows : List ExpiredRow}
    {m : List (String × ℤ)} (h : ∀ s ∈ steps, expiredBy s = ∅) :
    (SeatPhase.loop i rows m).Recorded R limit steps := by
  rcases m with _ | ⟨⟨k, q⟩, m⟩ <;> exact h

theorem SeatPhase.Recorded.move {t : τ} {db db' : Db τ} {env : ExpiryEnv} {limit : ℤ}
    {scope : Option String} {p p' : SeatPhase} {steps : List (Taken τ (Db τ))}
    (hrec : p.Recorded R limit steps) (hkept : Kept R db.reservations.committed)
    (hst : Standing t (.call (.expirePendingReservations env limit scope)) p db)
    (hm : SeatMove t db (.call (.expirePendingReservations env limit scope)) p db' p') :
    p'.Recorded R limit (steps ++ [⟨t, db, db'⟩]) := by
  have hsnoc : (∀ s ∈ steps, expiredBy s = ∅) →
      db'.reservations.committed = db.reservations.committed →
      ∀ s ∈ steps ++ [⟨t, db, db'⟩], expiredBy s = ∅ := by
    intro hsteps hdb s hs
    rcases List.mem_append.1 hs with hs | hs
    · exact hsteps s hs
    · rw [List.mem_singleton.1 hs, expiredBy, hdb, newlyExpired_self]
  cases hm with
  | beginScan => exact hsnoc hrec rfl
  | scanned =>
    have hnone := hsnoc hrec (committed_lockReservations _ _)
    split_ifs <;> exact hnone
  | marked => exact recorded_loop (hsnoc hrec (committed_expireRows _ _))
  | unpooled => exact recorded_loop (hsnoc hrec rfl)
  | released => exact recorded_loop (hsnoc hrec rfl)
  | @committedExpiry _ _ _ rows _ hp =>
    rcases hp with rfl | ⟨-, rfl⟩
    · obtain ⟨hmarked, -⟩ := hst
      have hsteps : ∀ s ∈ steps, expiredBy s = ∅ := hrec
      refine ⟨rows, rfl, hmarked.nodup, hmarked.length, fun x hx => ?_, fun id => ?_⟩
      · obtain ⟨r, hr, hexp, hx', -⟩ := hmarked.row x hx
        rw [quantityOf, hkept.row_of_pending hr hexp.1, hx']
        rfl
      · rw [← hmarked.expiredBy_commit]
        refine ⟨fun hid => ⟨_, by simp, hid⟩, ?_⟩
        rintro ⟨s, hs, hid⟩
        rcases List.mem_append.1 hs with hs | hs
        · rw [hsteps s hs] at hid
          simp at hid
        · rwa [List.mem_singleton.1 hs] at hid
    · trivial
  | aborted => trivial
  | caught => trivial

variable (env batchSize scope P R) in
/-- What holds along every trace of expiring calls. -/
structure ExpiryInv (h : List (Taken τ (Db τ))) (φ : τ → SeatPhase) (db : Db τ) : Prop where
  rows : Kept R db.reservations.committed
  pools : ∀ k, ∃ d, db.pools.committed.row k = (P.row k).map fun p => p.shift d
  expired : ∀ id, id ∈ newlyExpired R db.reservations.committed ↔ ∃ s ∈ h, id ∈ expiredBy s
  once : h.Pairwise fun s s' => Disjoint (expiredBy s) (expiredBy s')
  due : ∀ s ∈ h, ∀ id ∈ expiredBy s, ∀ r, s.before.reservations.committed.row id = some r →
    r.expiresAt < (env s.thread).now
  size : ∀ s ∈ h, (expiredBy s).card ≤ (batchSize s.thread).toNat
  recorded : ∀ t, (φ t).Recorded R (batchSize t) (stepsOf t h)

/-- A step that changes no committed row. -/
theorem ExpiryInv.kept {h : List (Taken τ (Db τ))} {φ φ' : τ → SeatPhase} {db db' : Db τ} {t : τ}
    (hinv : ExpiryInv env batchSize P R h φ db)
    (hpools : db'.pools.committed = db.pools.committed)
    (hreservations : db'.reservations.committed = db.reservations.committed)
    (hrecorded : ∀ t', (φ' t').Recorded R (batchSize t') (stepsOf t' (h ++ [⟨t, db, db'⟩]))) :
    ExpiryInv env batchSize P R (h ++ [⟨t, db, db'⟩]) φ' db' := by
  have hnone : expiredBy ⟨t, db, db'⟩ = ∅ := by
    rw [expiredBy, hreservations, newlyExpired_self]
  refine ⟨hreservations ▸ hinv.rows, hpools ▸ hinv.pools, fun id => ?_, ?_, fun s hs => ?_,
    fun s hs => ?_, hrecorded⟩
  · rw [hreservations, hinv.expired]
    simp [or_and_right, exists_or, hnone]
  · rw [List.pairwise_append]
    refine ⟨hinv.once, by simp, fun s _ s' hs' => ?_⟩
    rw [List.mem_singleton.1 hs', hnone]
    exact Finset.disjoint_empty_right _
  · rcases List.mem_append.1 hs with hs | hs
    · exact hinv.due s hs
    · rw [List.mem_singleton.1 hs, hnone]
      simp
  · rcases List.mem_append.1 hs with hs | hs
    · exact hinv.size s hs
    · rw [List.mem_singleton.1 hs, hnone]
      simp

/-- A COMMIT. The rows it expires were PENDING, so no step before has expired them. -/
theorem ExpiryInv.commit {h : List (Taken τ (Db τ))} {φ φ' : τ → SeatPhase} {db : Db τ} {t : τ}
    {rows : List ExpiredRow} {i : ℕ} (hinv : ExpiryInv env batchSize P R h φ db)
    (hmarked : MarkedRows t (env t).now (truthy (scope t)) (batchSize t) rows db)
    (hl : Looping t rows i [] db)
    (hrecorded : ∀ t', (φ' t').Recorded R (batchSize t')
      (stepsOf t' (h ++ [⟨t, db, db.commit t⟩]))) :
    ExpiryInv env batchSize P R (h ++ [⟨t, db, db.commit t⟩]) φ' (db.commit t) := by
  have hview : ∀ id, (db.commit t).reservations.committed.row id
      = if id ∈ rows.map ExpiredRow.id then
          (db.reservations.committed.row id).map fun r => { r with status := .expired }
        else db.reservations.committed.row id := hmarked.view_row
  have hrow : ∀ id ∈ rows.map ExpiredRow.id, ∃ r, db.reservations.committed.row id = some r
      ∧ r.Expirable (env t).now (truthy (scope t)) := by
    intro id hid
    obtain ⟨x, hx, rfl⟩ := List.mem_map.1 hid
    obtain ⟨r, hr, hexp, -⟩ := hmarked.row x hx
    exact ⟨r, hr, hexp⟩
  have hnew := hmarked.expiredBy_commit
  refine ⟨fun id => ?_, fun k => ?_, fun id => ?_, ?_, fun s hs => ?_, fun s hs => ?_, hrecorded⟩
  · rw [hview]
    split_ifs with hid
    · obtain ⟨r, hr, hexp⟩ := hrow id hid
      exact .inr ⟨r, hinv.rows.row_of_pending hr hexp.1, hexp.1, by rw [hr]; rfl⟩
    · exact hinv.rows id
  · obtain ⟨d, hd⟩ := hinv.pools k
    refine ⟨d - owedTo (capacityByTicketType rows) k, ?_⟩
    change (db.pools.view t).row k = _
    rw [hl.view_row, hd, Option.map_map]
    congr 1
    funext p
    simp only [Function.comp_apply, PoolRow.shift, PoolRow.mk.injEq, true_and, and_true]
    omega
  · have hsplit : id ∈ newlyExpired R (db.commit t).reservations.committed
        ↔ id ∈ newlyExpired R db.reservations.committed ∨ id ∈ rows.map ExpiredRow.id := by
      simp only [mem_newlyExpired, hview]
      split_ifs with hid
      · obtain ⟨r, hr, hexp⟩ := hrow id hid
        refine iff_of_true ⟨⟨r, hinv.rows.row_of_pending hr hexp.1, hexp.1⟩,
          { r with status := .expired }, by rw [hr]; rfl, rfl⟩ (.inr hid)
      · simp [hid]
    rw [hsplit, hinv.expired, ← hnew]
    simp [or_and_right, exists_or]
  · rw [List.pairwise_append]
    refine ⟨hinv.once, by simp, fun s hs s' hs' => ?_⟩
    rw [List.mem_singleton.1 hs', Finset.disjoint_left]
    intro id hid hid'
    -- it is EXPIRED already
    obtain ⟨-, r, hr, he⟩ := mem_newlyExpired.1 ((hinv.expired id).2 ⟨s, hs, hid⟩)
    obtain ⟨r', hr', hexp⟩ := hrow id ((hnew id).1 hid')
    rw [hr] at hr'
    obtain rfl := Option.some.inj hr'
    simp [hexp.1] at he
  · rcases List.mem_append.1 hs with hs | hs
    · exact hinv.due s hs
    · rw [List.mem_singleton.1 hs]
      intro id hid r hr
      obtain ⟨r', hr', hexp⟩ := hrow id ((hnew id).1 hid)
      rw [hr] at hr'
      exact Option.some.inj hr' ▸ hexp.2.1
  · rcases List.mem_append.1 hs with hs | hs
    · exact hinv.size s hs
    · rw [List.mem_singleton.1 hs]
      exact hmarked.card_le

theorem expiryInv_of_trace (hledger : SeatLedger P R) {h : List (Taken τ (Db τ))} {db : Db τ}
    (ht : (seats fun t => .call (expiryCalls env batchSize scope t)).Trace (Db.ofTables P R) h db) :
    ExpiryInv env batchSize P R h
      ((seats fun t => .call (expiryCalls env batchSize scope t)).phases h) db := by
  induction ht with
  | nil =>
    refine ⟨fun id => .inl rfl, fun k => ⟨0, ?_⟩, fun id => ?_, .nil, by simp, by simp,
      fun t s hs => by simp at hs⟩
    · change P.row k = _
      cases P.row k <;> simp [PoolRow.shift]
    · change id ∈ newlyExpired R R ↔ _
      simp
  | @snoc h db db' t p ht hm ih =>
    have hmove := SeatMove.of_move (a := .call (expiryCalls env batchSize scope t)) hm
    have hst := (standing_of_trace hledger ht).2 t
    have hrecorded : ∀ t', (Function.update ((seats fun t =>
        .call (expiryCalls env batchSize scope t)).phases h) t p t').Recorded R (batchSize t')
          (stepsOf t' (h ++ [⟨t, db, db'⟩])) := by
      intro t'
      rcases eq_or_ne t t' with rfl | hne
      · rw [Function.update_self, stepsOf_snoc_self (s := ⟨t, db, db'⟩)]
        exact (ih.recorded t).move ih.rows hst hmove
      · rw [Function.update_of_ne hne.symm, stepsOf_snoc_of_ne hne]
        exact ih.recorded t'
    rw [Machine.phases_snoc, Machine.advance_of_move hm]
    generalize hφ : (seats fun t => .call (expiryCalls env batchSize scope t)).phases h t = φt
      at hmove hst
    have hcommitted := hmove.committed
    unfold expiryCalls at hcommitted hst
    cases hcommitted with
    | kept hpools hreservations => exact ih.kept hpools hreservations hrecorded
    | expiry =>
      obtain ⟨hmarked, i, hl⟩ := hst
      exact ih.commit hmarked hl hrecorded

/-! ## Runs -/

/-- What a pool got back: the seats of the rows that are EXPIRED now. -/
theorem available_eq {T : Table String ReservationRow} (hkept : Kept R T) {k : String} :
    R.sum (seatsHeld k) - T.sum (seatsHeld k) = ∑ id ∈ newlyExpired R T, seatsOf R k id := by
  have hkeys : T.keys ⊆ R.keys := by
    intro id hid
    obtain ⟨r, hr⟩ := Option.isSome_iff_exists.1 ((T.mem_keys id).1 hid)
    rcases hkept id with he | ⟨r₀, hr₀, -, -⟩
    · exact Table.mem_keys_of_row (he ▸ hr)
    · exact Table.mem_keys_of_row hr₀
  rw [Table.sum_eq_of_subset hkeys, Table.sum, ← Finset.sum_sub_distrib]
  symm
  refine Finset.sum_subset_zero_on_sdiff (Finset.filter_subset _ _) ?_ ?_
  · intro id hid
    obtain ⟨hR, hid⟩ := Finset.mem_sdiff.1 hid
    rcases hkept id with he | ⟨r, hr, hp, he⟩
    · rw [he, sub_self]
    · exact absurd (mem_newlyExpired.2 ⟨⟨r, hr, hp⟩, _, he, rfl⟩) hid
  · intro id hid
    obtain ⟨⟨r, hr, hp⟩, r', hr', he⟩ := mem_newlyExpired.1 hid
    rw [seatsOf, hr, hr']
    simp [seatsHeld, hp, he, RowStatus.HoldsSeats]

/-- Any interleaving of expiring calls, on a database whose ledger is whole, shares the rows out
among those that commit, and returns to each pool the seats of its rows. -/
theorem expiry_partitions (hledger : SeatLedger P R) {h : List (Taken τ (Db τ))}
    {c : Config τ (Db τ) DbError SeatReply}
    (hrun : (seatCalls (Db.ofTables P R) (expiryCalls env batchSize scope)).Run h c) :
    Partitioned env batchSize P R h c := by
  obtain ⟨ht, hruns⟩ := trace_of_seat_run hrun
  have hinv := expiryInv_of_trace hledger ht
  have hended : ∀ t r, (c.thread t).result = some (.ok (.expirePendingReservations r)) →
      Accounted batchSize R h t r := by
    intro t r hr
    have hrec := hinv.recorded t
    rw [(hruns t).of_result hr] at hrec
    obtain ⟨rows, rfl, hnd, hlen, hq, hids⟩ := hrec
    refine ⟨by simp [expiryResult], hlen, hnd, ?_, hids⟩
    simp only [expiryResult, List.map_map]
    exact congrArg List.sum (List.map_congr_left fun x hx => (hq x hx).symm)
  refine ⟨hinv.once, hinv.due, hinv.size, hended, fun t t' r r' hne hr hr' id hid hid' => ?_,
    hinv.expired, fun k p hp => ?_⟩
  · obtain ⟨s, hs, hs₁⟩ := ((hended t r hr).ids id).1 hid
    obtain ⟨s', hs', hs₂⟩ := ((hended t' r' hr').ids id).1 hid'
    obtain ⟨hs, hst⟩ := mem_stepsOf.1 hs
    obtain ⟨hs', hst'⟩ := mem_stepsOf.1 hs'
    have hne' : s ≠ s' := by
      rintro rfl
      exact hne (hst.symm.trans hst')
    have : Std.Symm fun s s' : Taken τ (Db τ) => Disjoint (expiredBy s) (expiredBy s') :=
      ⟨fun _ _ h => h.symm⟩
    exact Finset.disjoint_left.1 (hinv.once.forall hs hs' hne') hs₁ hs₂
  · obtain ⟨d, hd⟩ := hinv.pools k
    rw [hp] at hd
    refine ⟨p.shift d, hd, ?_⟩
    have hreserved := ((standing_of_trace hledger ht).1.ledger k _ hd).reserved
    rw [← available_eq hinv.rows, ← (hledger k p hp).reserved, ← hreserved]
    simp only [PoolRow.shift]
    omega

end Traces

/-- Two workers on the one expired hold: the second finds its row locked. -/
def vipWorkers (t : Bool) : ExpiryEnv :=
  ⟨13, if t then [] else ["r0"], if t then [] else ["r0"], .answered, .answered, .answered,
    fun _ => .answered, .answered, .answered⟩

theorem vipWorkers_isSome :
    ((seatCalls (Db.ofTables vipPools vipReservations)
      (expiryCalls vipWorkers (fun _ => 10) fun _ => none)).history
      [false, true, false, true, false, true, false, false]).isSome := by decide

theorem expiry_partitions_vip :
    ∃ h c, (seatCalls (Db.ofTables vipPools vipReservations)
        (expiryCalls vipWorkers (fun _ => 10) fun _ => none)).Run h c
      ∧ (c.thread false).result = some (.ok (.expirePendingReservations ⟨1, 1, ["r0"]⟩))
      ∧ (c.thread true).result = some (.ok (.expirePendingReservations ⟨0, 0, []⟩))
      ∧ Partitioned vipWorkers (fun _ => 10) vipPools vipReservations h c := by
  have hrun := Config.run_of_history _ (Option.eq_some_of_isSome vipWorkers_isSome)
  exact ⟨_, _, hrun, by decide, by decide, expiry_partitions vip_ledger hrun⟩

end LaunchPad
