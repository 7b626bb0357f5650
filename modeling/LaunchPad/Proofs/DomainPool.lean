import LaunchPad.Proofs.Partition
import LaunchPad.Proofs.PoolCalls

/-!
# The SQL pool is the domain's pool

A pool row is the state of an `InventoryPool` that is given a `reserve` for each reservation and
each hold that is committed on its ticket type, and a `release` of the seats each expiring call
gives back (`PoolInv`). The ledger is why the clamps of the SQL never differ from the throws of the
class: a reservation that is expired has its seats among the reserved ones.
-/

namespace LaunchPad

open Interleave Rows

/-! ## The class -/

/-- The quantities of a pool row, as an `InventoryPool` has them. -/
def InventoryPool.ofRow (ticketTypeId : String) (p : PoolRow) : InventoryPool :=
  ⟨ticketTypeId, p.totalCapacity, p.availableQty, p.reservedQty, p.soldQty⟩

namespace InventoryPool

variable {k : String} {p : PoolRow} {q : ℤ}

theorem create_eq_ok {pool : InventoryPool} (h : create k (.ofInt q) = .ok pool) :
    0 < q ∧ pool = ⟨k, q, q, 0, 0⟩ := by
  obtain ⟨n, hn, rfl⟩ := create_ok h
  obtain rfl : q = n := Option.some.inj (integer_of_positiveInteger hn)
  exact ⟨pos_of_positiveInteger hn, rfl⟩

/-- A `reserve` the pool has enough for. -/
theorem reserve_ofRow (hbalance : p.availableQty + p.reservedQty + p.soldQty = p.totalCapacity)
    (hq : 0 < q) (hle : q ≤ p.availableQty) :
    reserve (.ofInt q) (ofRow k p) = some (.ok (), ofRow k (p.shift q)) := by
  refine moveQuantity_of_le (positiveInteger_ofInt hq) hle ?_
  simp only [ofRow]
  omega

/-- A `reserve` throws `InsufficientInventoryError` just where it has too little. -/
theorem reserve_ofRow_insufficient
    (hbalance : p.availableQty + p.reservedQty + p.soldQty = p.totalCapacity) (hq : 0 < q) :
    (∃ message pool, reserve (.ofInt q) (ofRow k p)
      = some (.error (.insufficientInventory message), pool)) ↔ p.availableQty < q := by
  refine ⟨fun ⟨message, pool, h⟩ => ?_, fun hlt => ⟨_, _, moveQuantity_of_lt (positiveInteger_ofInt hq) hlt⟩⟩
  by_contra hle
  rw [reserve_ofRow hbalance hq (not_lt.1 hle)] at h
  simp at h

/-- A `release` of seats that are reserved. -/
theorem release_ofRow (hbalance : p.availableQty + p.reservedQty + p.soldQty = p.totalCapacity)
    (hq : 0 < q) (hle : q ≤ p.reservedQty) :
    release (.ofInt q) (ofRow k p) = some (.ok (), ofRow k (p.shift (-q))) := by
  have hmoved : ofRow k (p.shift (-q)) = { ofRow k p with
      reservedQuantity := p.reservedQty - q
      availableQuantity := p.availableQty + q } := by
    simp [ofRow, PoolRow.shift, sub_eq_add_neg]
  rw [hmoved]
  refine moveQuantity_of_le (positiveInteger_ofInt hq) hle ?_
  simp only [ofRow]
  omega

theorem feed_snoc {commands : List PoolCommand} {command : PoolCommand}
    {pool₀ pool : InventoryPool} (h : feed commands pool₀ = some (.ok (), pool)) :
    feed (commands ++ [command]) pool₀ = command.run pool := by
  induction commands generalizing pool₀ with
  | nil =>
    obtain ⟨-, rfl⟩ := Prod.mk.inj (Option.some.inj h)
    change (command.run >>= fun _ => pure ()) pool₀ = _
    rw [Sync.bind_apply]
    rcases command.run pool₀ with _ | ⟨_ | _, _⟩ <;> rfl
  | cons c commands ih =>
    rcases Sync.bind_eq_some.1 h with ⟨u, pool₁, hc, hrest⟩ | ⟨e, -, he⟩
    · change (c.run >>= fun _ => feed (commands ++ [command])) pool₀ = _
      rw [Sync.bind_apply, hc]
      exact ih hrest
    · simp at he

end InventoryPool

/-! ## What the object is fed -/

section Fed

variable {τ : Type} [DecidableEq τ]

/-- The step commits a new reservation with this id. -/
def Adds (s : Taken τ (Db τ)) (id : String) : Prop :=
  s.before.reservations.committed.row id = none ∧ s.after.reservations.committed.row id ≠ none

instance (s : Taken τ (Db τ)) (id : String) : Decidable (Adds s id) :=
  inferInstanceAs (Decidable (_ ∧ _))

/-- The seats of the ticket type whose reservations the step expires. -/
def seatsReleased (k : String) (s : Taken τ (Db τ)) : ℤ :=
  ∑ id ∈ expiredBy s, seatsOf s.before.reservations.committed k id

variable (actions : τ → SeatAction) (k : String)

/-- What a step is to the object: a `reserve` where a reservation or a hold is committed, a `release`
of what an expiring call gives back. -/
def fedBy (s : Taken τ (Db τ)) : List PoolCommand :=
  match actions s.thread with
  | .call (.reserveAtomic env k' q _) =>
    if k' = k ∧ Adds s env.reservationId then [.reserve (.ofInt q)] else []
  | .call (.expirePendingReservations ..) =>
    if seatsReleased k s = 0 then [] else [.release (.ofInt (seatsReleased k s))]
  | .introduceHold id _ k' q _ => if k' = k ∧ Adds s id then [.reserve (.ofInt q)] else []

def fed (h : List (Taken τ (Db τ))) : List PoolCommand := h.flatMap (fedBy actions k)

/-- The pool row is the state of the object after these calls, none of which threw. -/
def Tracks (pool₀ : InventoryPool) (commands : List PoolCommand) (db : Db τ) : Prop :=
  ∃ p, db.pools.committed.row k = some p
    ∧ InventoryPool.feed commands pool₀ = some (.ok (), .ofRow k p)

end Fed

section Steps

variable {τ : Type} [DecidableEq τ] {actions : τ → SeatAction} {k : String}
  {h : List (Taken τ (Db τ))} {pool₀ : InventoryPool} {t : τ} {db db' : Db τ}

omit [DecidableEq τ] in
theorem fed_snoc (s : Taken τ (Db τ)) :
    fed actions k (h ++ [s]) = fed actions k h ++ fedBy actions k s := by
  simp [fed, List.flatMap_append]

omit [DecidableEq τ] in
theorem fedBy_of_kept (hdb : db'.reservations.committed = db.reservations.committed) :
    fedBy actions k ⟨t, db, db'⟩ = [] := by
  have hadds : ∀ id, ¬ Adds ⟨t, db, db'⟩ id := by
    rintro id ⟨hnone, hsome⟩
    exact hsome (hdb ▸ hnone)
  have hreleased : seatsReleased k ⟨t, db, db'⟩ = 0 := by
    rw [seatsReleased, expiredBy, hdb, newlyExpired_self, Finset.sum_empty]
  unfold fedBy
  split
  · rw [if_neg fun hk => hadds _ hk.2]
  · rw [if_pos hreleased]
  · rw [if_neg fun hk => hadds _ hk.2]

/-- What the map of an expiring call owes a pool is what its COMMIT releases. -/
theorem MarkedRows.seatsReleased_commit {now : Time} {scope : Option String} {limit : ℤ}
    {rows : List ExpiredRow} (hm : MarkedRows t now scope limit rows db) :
    seatsReleased k ⟨t, db, db.commit t⟩ = owedTo (capacityByTicketType rows) k := by
  rw [seatsReleased, hm.expiredBy_commit_eq, List.sum_toFinset _ hm.nodup, List.map_map,
    owedTo_capacityByTicketType]
  refine congrArg List.sum (List.map_congr_left fun x hx => ?_)
  obtain ⟨r, hr, -, hx', -⟩ := hm.row x hx
  rw [hx']
  simp [seatsOf, hr]

omit [DecidableEq τ] in
/-- One more call, which does to the object what the step does to the row. -/
theorem Tracks.call {commands : List PoolCommand} {command : PoolCommand} {p p' : PoolRow}
    (htracks : Tracks k pool₀ commands db) (hp : db.pools.committed.row k = some p)
    (hp' : db'.pools.committed.row k = some p')
    (hrun : command.run (.ofRow k p) = some (.ok (), .ofRow k p')) :
    Tracks k pool₀ (commands ++ [command]) db' := by
  obtain ⟨p₁, hp₁, hfeed⟩ := htracks
  rw [hp] at hp₁
  obtain rfl := Option.some.inj hp₁
  exact ⟨p', hp', by rw [InventoryPool.feed_snoc hfeed, hrun]⟩

omit [DecidableEq τ] in
theorem Tracks.of_row {commands : List PoolCommand} (htracks : Tracks k pool₀ commands db)
    (hrow : db'.pools.committed.row k = db.pools.committed.row k) :
    Tracks k pool₀ commands db' := by
  obtain ⟨p, hp, hfeed⟩ := htracks
  exact ⟨p, hrow.trans hp, hfeed⟩

omit [DecidableEq τ] in
/-- `q` seats of the pool `k'` are reserved, with a reservation that is new. -/
theorem Tracks.reserved {k' id : String} {q : ℤ} {p : PoolRow} {commands : List PoolCommand}
    (htracks : Tracks k pool₀ commands db) (hledger : SeatInv db) (hq : 0 < q)
    (hp : db.pools.committed.row k' = some p) (hle : q ≤ p.availableQty)
    (hfresh : db.reservations.committed.row id = none)
    (hpools : db'.pools.committed = db.pools.committed.set k' (p.shift q))
    (hadded : db'.reservations.committed.row id ≠ none)
    (hfed : fedBy actions k ⟨t, db, db'⟩
      = if k' = k ∧ Adds ⟨t, db, db'⟩ id then [.reserve (.ofInt q)] else []) :
    Tracks k pool₀ (commands ++ fedBy actions k ⟨t, db, db'⟩) db' := by
  have hadds : Adds ⟨t, db, db'⟩ id := ⟨hfresh, hadded⟩
  rw [hfed]
  by_cases hk : k' = k
  · subst hk
    rw [if_pos ⟨rfl, hadds⟩]
    exact htracks.call hp (by simp [hpools])
      (InventoryPool.reserve_ofRow (hledger.ledger k' p hp).balance hq hle)
  · rw [if_neg fun h => hk h.1, List.append_nil]
    exact htracks.of_row (by rw [hpools, Table.set_row, if_neg (Ne.symm hk)])

theorem Tracks.move {a : SeatAction} {φ φ' : SeatPhase} {commands : List PoolCommand}
    (htracks : Tracks k pool₀ commands db) (ha : actions t = a)
    (hst : Standing t a φ db) (hinv' : SeatInv db') (hm : SeatMove t db a φ db' φ') :
    Tracks k pool₀ (commands ++ fedBy actions k ⟨t, db, db'⟩) db' := by
  have hinv := hst.inv
  cases hm.committed with
  | kept hpools hreservations =>
    rw [fedBy_of_kept hreservations, List.append_nil]
    exact htracks.of_row (by rw [hpools])
  | @reserve env k' u q =>
    obtain ⟨-, p, hb, hpending⟩ := hst
    obtain ⟨hq, hreservation⟩ := hb.pending
    refine htracks.reserved hinv hq hb.row hb.enough hb.fresh ?_ ?_ ?_
    · change db.pools.view t = _
      rw [TxTable.view, hpending, Table.overlay_set_empty]
    · change (db.reservations.view t).row _ ≠ none
      rw [TxTable.view, hreservation, Table.overlay_set_empty]
      simp
    · simp only [fedBy, ha]
  | @expiry env n scope rows =>
    obtain ⟨hmarked, i, hl⟩ := hst
    have hfed : fedBy actions k ⟨t, db, db.commit t⟩
        = if seatsReleased k ⟨t, db, db.commit t⟩ = 0 then []
          else [.release (.ofInt (seatsReleased k ⟨t, db, db.commit t⟩))] := by
      simp only [fedBy, ha]
    obtain ⟨p, hp, -⟩ := id htracks
    have hrow : (db.commit t).pools.committed.row k
        = some (p.shift (-owedTo (capacityByTicketType rows) k)) := by
      change (db.pools.view t).row k = _
      rw [hl.view_row, hp]
      rfl
    rw [hfed, hmarked.seatsReleased_commit]
    have hpos : ∀ x ∈ rows, 0 < x.quantity := by
      intro x hx
      obtain ⟨r, -, -, hx', -⟩ := hmarked.row x hx
      rw [hx']
      exact r.quantity_pos
    have howed := owedTo_nonneg (pos_capacityByTicketType hpos) k
    split_ifs with hzero
    · rw [List.append_nil]
      refine htracks.of_row ?_
      rw [hrow, hp, hzero]
      simp [PoolRow.shift]
    · -- the ledger is whole after the COMMIT, so the reserved seats suffice
      have hreserved := (hinv'.ledger k _ hrow).reserved_nonneg
      simp only [PoolRow.shift] at hreserved
      exact htracks.call hp hrow (InventoryPool.release_ofRow (hinv.ledger k p hp).balance
        (by omega) (by omega))
  | @hold id u k' q expiresAt p _ hq hp hle hrow hpools hreservations =>
    have hidle : Idle t db := hst
    refine htracks.reserved hinv hq hp hle hrow ?_ ?_ ?_
    · rw [hpools, TxTable.view, TxTable.write_pending_self, hidle.pools, Table.overlay_set_empty]
      rfl
    · rw [hreservations, TxTable.view, TxTable.write_pending_self, hidle.reservations,
        Table.overlay_set_empty]
      simp
    · simp only [fedBy, ha]

end Steps

/-! ## What a call is to the object -/

section Calls

variable {τ : Type} [DecidableEq τ] {actions : τ → SeatAction} {k : String} {t : τ}
  {db db' : Db τ}

/-- What an action has been to the object where it stands: nothing before its COMMIT, and one call
at most. -/
def FedSo (k : String) (commands : List PoolCommand) (a : SeatAction) (p : SeatPhase) : Prop :=
  match a, p with
  | .call (.reserveAtomic env k' q _), .ended (.ok r) =>
    r = .reserveAtomic ⟨true, .reserved, some env.reservationId⟩
        ∧ commands = (if k' = k then [.reserve (.ofInt q)] else [])
      ∨ r = .reserveAtomic soldOut ∧ commands = []
  | _, .ended _ => commands.length ≤ 1
  | _, .catching _ => commands.length ≤ 1
  | _, .introduced => commands.length ≤ 1
  | _, _ => commands = []

theorem FedSo.length_le {commands : List PoolCommand} {a : SeatAction} {p : SeatPhase}
    (h : FedSo k commands a p) : commands.length ≤ 1 := by
  unfold FedSo at h
  split at h
  · rcases h with ⟨-, rfl⟩ | ⟨-, rfl⟩
    · split_ifs <;> simp
    · simp
  · exact h
  · exact h
  · exact h
  · simp [h]

omit [DecidableEq τ] in
theorem length_fedBy_le (s : Taken τ (Db τ)) : (fedBy actions k s).length ≤ 1 := by
  unfold fedBy
  split <;> split_ifs <;> simp

theorem fedSo_loop {env : ExpiryEnv} {n : ℤ} {scope : Option String} {i : ℕ}
    {rows : List ExpiredRow} {m : List (String × ℤ)} {commands : List PoolCommand}
    (h : commands = []) :
    FedSo k commands (.call (.expirePendingReservations env n scope)) (.loop i rows m) := by
  rcases m with _ | ⟨⟨k', q⟩, m⟩ <;> exact h

theorem FedSo.move {a : SeatAction} {p p' : SeatPhase} {commands : List PoolCommand}
    (h : FedSo k commands a p) (ha : actions t = a) (hst : Standing t a p db)
    (hm : SeatMove t db a p db' p') :
    FedSo k (commands ++ fedBy actions k ⟨t, db, db'⟩) a p' := by
  have hkept : db'.reservations.committed = db.reservations.committed →
      commands ++ fedBy actions k ⟨t, db, db'⟩ = commands := fun hdb => by
    rw [fedBy_of_kept hdb, List.append_nil]
  have hone : commands = [] → (commands ++ fedBy actions k ⟨t, db, db'⟩).length ≤ 1 := fun hnil => by
    rw [hnil, List.nil_append]
    exact length_fedBy_le _
  cases hm with
  | begin => rw [hkept rfl]; exact h
  | beginScan => rw [hkept rfl]; exact h
  | missing => rw [hkept rfl]; exact h
  | locked =>
    rw [hkept rfl]
    split_ifs <;> exact h
  | inserted => rw [hkept rfl]; exact h
  | updated => rw [hkept rfl]; exact h
  | missed => rw [hkept rfl]; exact h
  | scanned =>
    rw [hkept (committed_lockReservations _ _)]
    split_ifs <;> exact h
  | marked =>
    rw [hkept (committed_expireRows _ _)]
    exact fedSo_loop h
  | unpooled =>
    rw [hkept rfl]
    exact fedSo_loop h
  | released =>
    rw [hkept rfl]
    exact fedSo_loop h
  | @committedReserve env k' u q _ hp =>
    rcases hp with rfl | ⟨-, rfl⟩
    · obtain ⟨-, p, hb, -⟩ := hst
      obtain ⟨hq, hreservation⟩ := hb.pending
      have hadds : Adds ⟨t, db, db.commit t⟩ env.reservationId := by
        refine ⟨hb.fresh, ?_⟩
        change (db.reservations.view t).row _ ≠ none
        rw [TxTable.view, hreservation, Table.overlay_set_empty]
        simp
      have hnil : commands = [] := h
      refine .inl ⟨rfl, ?_⟩
      simp only [hnil, List.nil_append, fedBy, ha, and_iff_left hadds]
    · exact hone h
  | committedExpiry hp =>
    rcases hp with rfl | ⟨-, rfl⟩ <;> exact hone h
  | rejected hp =>
    rw [hkept rfl]
    rcases hp with rfl | ⟨-, rfl⟩
    · exact .inr ⟨rfl, h⟩
    · exact h.length_le
  | @aborted c =>
    rw [hkept rfl]
    have hlen := h.length_le
    cases c <;> exact hlen
  | @caught c =>
    rw [hkept rfl]
    have hlen := h.length_le
    cases c <;> exact hlen
  | introduced => exact hone h
  | refused =>
    rw [hkept rfl]
    exact h.length_le

end Calls

/-! ## Runs -/

section Runs

variable {τ : Type} [DecidableEq τ] {actions : τ → SeatAction} {k : String}
  {P : Table String PoolRow} {p₀ : PoolRow} {pool₀ : InventoryPool}
  {h : List (Taken τ (Db τ))} {db : Db τ}

theorem tracks_of_trace (hledger : SeatLedger P .empty) (hp : P.row k = some p₀)
    (hpool : pool₀ = .ofRow k p₀) (ht : (seats actions).Trace (Db.ofTables P .empty) h db) :
    Tracks k pool₀ (fed actions k h) db := by
  induction ht with
  | nil =>
    subst hpool
    exact ⟨p₀, hp, rfl⟩
  | @snoc h db db' t p ht hm ih =>
    rw [fed_snoc]
    exact ih.move rfl ((standing_of_trace hledger ht).2 t)
      (standing_of_trace hledger (ht.snoc hm)).1 (.of_move hm)

theorem fedSo_of_trace (hledger : SeatLedger P .empty)
    (ht : (seats actions).Trace (Db.ofTables P .empty) h db) (t : τ) :
    FedSo k (fed actions k (stepsOf t h)) (actions t) ((seats actions).phases h t) := by
  induction ht with
  | nil => rcases actions t with ⟨_ | _⟩ | _ <;> rfl
  | @snoc h db db' i p ht hm ih =>
    rw [Machine.phases_snoc, Machine.advance_of_move hm]
    rcases eq_or_ne i t with rfl | hne
    · rw [Function.update_self, stepsOf_snoc_self (s := ⟨i, db, db'⟩), fed_snoc]
      exact ih.move rfl ((standing_of_trace hledger ht).2 i) (.of_move hm)
    · rw [Function.update_of_ne hne.symm, stepsOf_snoc_of_ne hne]
      exact ih

variable (actions k) in
/-- The answer of a call and the object at the call's last statement: it is turned away just where
`reserve` would throw `InsufficientInventoryError`, and counts for one `reserve` where it is not. -/
structure AnsweredAs (pool₀ : InventoryPool) (h : List (Taken τ (Db τ))) (t : τ) (q : ℤ)
    (id : String) (r : AtomicReservationResult) : Prop where
  reply : r = ⟨true, .reserved, some id⟩ ∧ fed actions k (stepsOf t h) = [.reserve (.ofInt q)]
    ∨ r = soldOut ∧ fed actions k (stepsOf t h) = []
  decided : ∃ h₁ s pool, h₁ ++ [s] <+: h ∧ stepsOf t h = stepsOf t h₁ ++ [s]
    ∧ InventoryPool.feed (fed actions k h₁) pool₀ = some (.ok (), pool)
    ∧ (r = soldOut ↔ ∃ message pool', InventoryPool.reserve (.ofInt q) pool
      = some (.error (.insufficientInventory message), pool'))

/-- Where a call stood before its answer, and what it had read under the pool's lock. -/
theorem decided_of_answer {t : τ} {env : ReserveEnv} {q : ℤ} {u : String} {p p' : SeatPhase}
    {db' : Db τ} {r : AtomicReservationResult}
    (hst : Standing t (.call (.reserveAtomic env k q u)) p db) {pr : PoolRow}
    (hrow : db.pools.committed.row k = some pr)
    (hm : SeatMove t db (.call (.reserveAtomic env k q u)) p db' p')
    (hp' : p' = .ended (.ok (.reserveAtomic r))) : r = soldOut ↔ pr.availableQty < q := by
  cases hm with
  | committedReserve hp =>
    rcases hp with rfl | ⟨-, rfl⟩
    · obtain ⟨-, p, hb, -⟩ := hst
      have hle := hb.enough
      rw [hb.row] at hrow
      obtain rfl := Option.some.inj hrow
      simp only [SeatPhase.ended.injEq, Except.ok.injEq, SeatReply.reserveAtomic.injEq] at hp'
      subst hp'
      exact iff_of_false (by simp [soldOut]) (not_lt.2 hle)
    · simp at hp'
  | rejected hp =>
    rcases hp with rfl | ⟨-, rfl⟩
    · obtain ⟨-, hnone | ⟨p, ⟨-, hc, -⟩, hlt⟩⟩ := hst
      · simp [hnone] at hrow
      · rw [hc] at hrow
        obtain rfl := Option.some.inj hrow
        simp only [SeatPhase.ended.injEq, Except.ok.injEq, SeatReply.reserveAtomic.injEq] at hp'
        exact iff_of_true hp'.symm hlt
    · simp at hp'
  | locked => split_ifs at hp'
  | _ => simp at hp'

/-- The SQL pool refines the domain's: whatever runs, a pool row that started with all of its seats
available is the state of an `InventoryPool` that was given the calls the steps amount to. -/
theorem sql_pool_refines (hledger : SeatLedger P .empty) (hp : P.row k = some p₀)
    (havailable : p₀.availableQty = p₀.totalCapacity)
    (hcreate : InventoryPool.create k (.ofInt p₀.totalCapacity) = .ok pool₀)
    {c : Config τ (Db τ) DbError (Option SeatReply)}
    (hrun : (seatActions (Db.ofTables P .empty) actions).Run h c) :
    Tracks k pool₀ (fed actions k h) c.world
      ∧ (∀ t, (fed actions k (stepsOf t h)).length ≤ 1)
      ∧ ∀ t env q u r, actions t = .call (.reserveAtomic env k q u) → 0 < q →
        (c.thread t).result = some (.ok (some (.reserveAtomic r))) →
          AnsweredAs actions k pool₀ h t q env.reservationId r := by
  obtain ⟨ht, hruns⟩ := trace_of_action_run hrun
  obtain ⟨-, rfl⟩ := InventoryPool.create_eq_ok hcreate
  have hpool : (⟨k, p₀.totalCapacity, p₀.totalCapacity, 0, 0⟩ : InventoryPool) = .ofRow k p₀ := by
    obtain ⟨hbalance, -, -, hsold, hreserved⟩ := hledger k p₀ hp
    rw [Table.sum_empty] at hreserved
    simp only [InventoryPool.ofRow, InventoryPool.mk.injEq, true_and]
    omega
  refine ⟨tracks_of_trace hledger hp hpool ht, fun t => (fedSo_of_trace hledger ht t).length_le,
    fun t env q u r ha hq hr => ?_⟩
  have hended : (seats actions).phases h t = .ended (.ok (.reserveAtomic r)) := by
    rcases (hruns t).of_result hr with ⟨-, hne⟩ | ⟨r', hphase, he⟩
    · exact absurd rfl (hne _)
    · rcases r' with e | r'
      · simp [Except.map] at he
      · simp only [Except.map, Except.ok.injEq, Option.some.injEq] at he
        rw [hphase, ← he]
  have hfed := fedSo_of_trace (k := k) hledger ht t
  rw [hended, ha] at hfed
  obtain ⟨h₁, s, hprefix, hsteps, ht₁, hmove⟩ := ht.last_step (t := t) (by rw [hended]; simp [seats])
  obtain ⟨p, hrow, hfeed⟩ := tracks_of_trace hledger hp hpool ht₁
  obtain ⟨hinv, hst⟩ := standing_of_trace hledger ht₁
  have hst := hst t
  have hm : SeatMove t s.before (actions t) _ s.after _ := .of_move hmove
  rw [ha] at hst hm
  refine ⟨?_, h₁, s, _, hprefix, hsteps, hfeed, ?_⟩
  · rcases hfed with ⟨he, hc⟩ | ⟨he, hc⟩
    · exact .inl ⟨SeatReply.reserveAtomic.inj he, by rw [hc, if_pos rfl]⟩
    · exact .inr ⟨SeatReply.reserveAtomic.inj he, hc⟩
  · rw [InventoryPool.reserve_ofRow_insufficient (hinv.ledger k p hrow).balance hq]
    exact decided_of_answer hst hrow hm hended

end Runs

/-- Two seats: one is reserved and one held, a third request finds none, and the hold expires. -/
def boxOffice : Fin 4 → SeatAction := fun t =>
  [.call (.reserveAtomic ⟨"r0", 0, .answered, .answered, .answered, .answered, .answered, .answered,
      .answered⟩ "vip" 1 "ann"),
    .introduceHold "r1" "bob" "vip" 1 5,
    .call (.reserveAtomic ⟨"r2", 0, .answered, .answered, .answered, .answered, .answered, .answered,
      .answered⟩ "vip" 1 "cid"),
    .call (.expirePendingReservations ⟨10, ["r1"], ["r1"], .answered, .answered, .answered,
      fun _ => .answered, .answered, .answered⟩ 10 none)].get t

def boxOfficePools : Table String PoolRow := Table.empty.set "vip" ⟨2, 2, 0, 0⟩

theorem boxOffice_ledger : SeatLedger boxOfficePools .empty := by
  intro k p hp
  rw [boxOfficePools, Table.set_row_eq_some] at hp
  rcases hp with ⟨-, rfl⟩ | ⟨-, hp⟩
  · exact ⟨by decide, by decide, by decide, by decide, rfl⟩
  · simp at hp

theorem boxOffice_isSome : ((seatActions (Db.ofTables boxOfficePools .empty) boxOffice).history
    [0, 1, 2, 3, 0, 0, 0, 0, 2, 2, 3, 3, 3, 3]).isSome := by decide

theorem sql_pool_refines_boxOffice :
    ∃ h c, (seatActions (Db.ofTables boxOfficePools .empty) boxOffice).Run h c
      ∧ c.world.pools.committed.row "vip" = some ⟨2, 1, 1, 0⟩
      ∧ Tracks "vip" ⟨"vip", 2, 2, 0, 0⟩ (fed boxOffice "vip" h) c.world
      ∧ AnsweredAs boxOffice "vip" ⟨"vip", 2, 2, 0, 0⟩ h 2 1 "r2" soldOut := by
  have hrun := Config.run_of_history _ (Option.eq_some_of_isSome boxOffice_isSome)
  have hp : boxOfficePools.row "vip" = some ⟨2, 2, 0, 0⟩ := rfl
  have hcreate : InventoryPool.create "vip" (.ofInt 2) = .ok ⟨"vip", 2, 2, 0, 0⟩ := by decide
  obtain ⟨htracks, -, hanswered⟩ := sql_pool_refines boxOffice_ledger hp rfl hcreate hrun
  exact ⟨_, _, hrun, by decide, htracks, hanswered 2 _ 1 _ _ rfl (by decide) (by decide)⟩

end LaunchPad
