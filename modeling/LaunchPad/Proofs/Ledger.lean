import LaunchPad.Inventory
import LaunchPad.Lib.RelyGuarantee

/-!
# No seat is sold twice

A transaction that has changed reservations owes the pools the difference: `Owes t m` says that
the versions it has written so far move every pool's reserved seats by what its reservations
moved, up to the `m` it still has to write. Between INSERT and UPDATE a reserving transaction owes
its quantity, an expiring one owes what the rest of its loop will return, and at COMMIT both owe
nothing, which is what makes the committed ledger whole again (`guarantee_commit`).

The rows a transaction changed are under its locks, so what it owes does not depend on the others
(`stable_owes`).
-/

namespace LaunchPad

open Interleave Rows

variable {τ : Type}

/-- The row after `d` seats moved from available to reserved. -/
def PoolRow.shift (p : PoolRow) (d : ℤ) : PoolRow :=
  { p with availableQty := p.availableQty - d, reservedQty := p.reservedQty + d }

/-- What holds of the database between any two statements. -/
structure SeatInv (db : Db τ) : Prop where
  ledger : SeatLedger db.pools.committed db.reservations.committed
  pools : db.pools.Locked
  reservations : db.reservations.Locked
  log : ∀ e ∈ db.poolLog, e.Exact

/-- What a statement of transaction `t` does. -/
structure SeatGuarantee (t : τ) (db db' : Db τ) : Prop where
  pools : TxTable.Frame t db.pools db'.pools
  reservations : TxTable.Frame t db.reservations db'.reservations
  rows : ∀ k, db'.pools.committed.row k = none ↔ db.pools.committed.row k = none
  inv : SeatInv db → SeatInv db'

def SeatRely (t : τ) (db db' : Db τ) : Prop := ∃ t', t ≠ t' ∧ SeatGuarantee t' db db'

/-- The pools' versions of `t` lag `m` behind its reservations' versions. -/
structure Owes (t : τ) (m : String → ℤ) (db : Db τ) : Prop where
  inv : SeatInv db
  unwritten : ∀ k, db.pools.committed.row k ≠ none → (db.pools.pending t).row k = none →
    m k = db.reservations.pendingSum t (seatsHeld k)
  written : ∀ k p', (db.pools.pending t).row k = some p' →
    ∃ p d, db.pools.committed.row k = some p ∧ p' = p.shift d ∧ 0 ≤ p.availableQty - d
      ∧ d + m k = db.reservations.pendingSum t (seatsHeld k)

/-- Transaction `t` has changed nothing. -/
structure Idle (t : τ) (db : Db τ) : Prop where
  inv : SeatInv db
  pools : db.pools.pending t = .empty
  reservations : db.reservations.pending t = .empty

theorem seatsHeld_nonneg (k : String) (r : ReservationRow) : 0 ≤ seatsHeld k r := by
  unfold seatsHeld
  split_ifs
  · exact r.quantity_pos.le
  · exact le_rfl

theorem Idle.owes {t : τ} {db : Db τ} (h : Idle t db) : Owes t 0 db where
  inv := h.inv
  unwritten k _ _ := by
    rw [TxTable.pendingSum_of_empty h.reservations]
    rfl
  written k p' hp := by
    rw [h.pools] at hp
    simp at hp

section Stable

variable {t : τ}

theorem stable_inv : Stable (SeatRely t) (SeatInv (τ := τ)) :=
  fun _ _ h ⟨_, _, hG⟩ => hG.inv h

theorem stable_idle : Stable (SeatRely t) (Idle t) := by
  rintro db db' h ⟨t', ht, hG⟩
  exact ⟨hG.inv h.inv, (hG.pools.pending t ht).trans h.pools,
    (hG.reservations.pending t ht).trans h.reservations⟩

theorem stable_owes (m : String → ℤ) : Stable (SeatRely t) (Owes t m) := by
  rintro db db' h ⟨t', ht, hG⟩
  have hsum : ∀ k, db'.reservations.pendingSum t (seatsHeld k)
      = db.reservations.pendingSum t (seatsHeld k) :=
    fun k => hG.reservations.pendingSum_eq ht h.inv.reservations _
  refine ⟨hG.inv h.inv, fun k hk hp => ?_, fun k p' hp => ?_⟩
  · rw [hsum]
    rw [hG.pools.pending t ht] at hp
    exact h.unwritten k (fun hn => hk ((hG.rows k).2 hn)) hp
  · rw [hG.pools.pending t ht] at hp
    obtain ⟨p, d, hc, hp', ha, hd⟩ := h.written k p' hp
    refine ⟨p, d, ?_, hp', ha, by rw [hsum, hd]⟩
    rw [hG.pools.committed k t ht (h.inv.pools t k p' hp), hc]

/-- Transaction `t` has the lock of the pool row `k`, whose version is the committed `p`. -/
def HoldsPool (t : τ) (k : String) (p : PoolRow) (db : Db τ) : Prop :=
  db.pools.lockedBy k = some t ∧ db.pools.committed.row k = some p
    ∧ (db.pools.pending t).row k = none

theorem stable_holdsPool (k : String) (p : PoolRow) :
    Stable (SeatRely t) (HoldsPool t k p) := by
  rintro db db' ⟨hl, hc, hp⟩ ⟨t', ht, hG⟩
  refine ⟨(hG.pools.lockedBy k t ht).2 hl, ?_, ?_⟩
  · rw [hG.pools.committed k t ht hl, hc]
  · rw [hG.pools.pending t ht, hp]

end Stable

theorem guarantee_refl (t : τ) (db : Db τ) : SeatGuarantee t db db :=
  ⟨.refl t _, .refl t _, fun _ => Iff.rfl, id⟩

/-- What `t` sees of a pool row is the committed row with some seats moved. -/
theorem Owes.view {t : τ} {m : String → ℤ} {db : Db τ} (h : Owes t m db) {k : String} {p' : PoolRow}
    (hv : (db.pools.view t).row k = some p') :
    ∃ p d, db.pools.committed.row k = some p ∧ p' = p.shift d ∧ 0 ≤ p.availableQty - d
      ∧ d + m k = db.reservations.pendingSum t (seatsHeld k) := by
  rcases hp : (db.pools.pending t).row k with _ | q
  · have hc : db.pools.committed.row k = some p' := by
      rwa [TxTable.view, Table.overlay_row_of_none hp] at hv
    refine ⟨p', 0, hc, by simp [PoolRow.shift], ?_, ?_⟩
    · simpa using (h.inv.ledger k p' hc).available_nonneg
    · rw [zero_add]
      exact h.unwritten k (by simp [hc]) hp
  · obtain rfl : q = p' := by simpa [TxTable.view, hp] using hv
    exact h.written k q hp

/-! ## Both ends of a transaction -/

variable [DecidableEq τ]

theorem inv_rollback {db : Db τ} (h : SeatInv db) (t : τ) : SeatInv (db.rollback t) :=
  ⟨h.ledger, TxTable.locked_rollback h.pools t, TxTable.locked_rollback h.reservations t, h.log⟩

theorem guarantee_rollback (t : τ) (db : Db τ) : SeatGuarantee t db (db.rollback t) :=
  ⟨TxTable.frame_rollback _ t, TxTable.frame_rollback _ t, fun _ => Iff.rfl,
    fun h => inv_rollback h t⟩

theorem idle_rollback {db : Db τ} (h : SeatInv db) (t : τ) : Idle t (db.rollback t) :=
  ⟨inv_rollback h t, TxTable.rollback_pending_self _ t, TxTable.rollback_pending_self _ t⟩

omit [DecidableEq τ] in
/-- A pool row as `t` sees it has its reserved seats in the reservations `t` sees, but for what
`t` owes it. -/
theorem Owes.accounts {t : τ} {m : String → ℤ} {db : Db τ} (h : Owes t m db) {k : String}
    {p : PoolRow} (hv : (db.pools.view t).row k = some p) :
    p.availableQty + p.reservedQty + p.soldQty = p.totalCapacity ∧ 0 ≤ p.availableQty
      ∧ 0 ≤ p.soldQty
      ∧ p.reservedQty + m k = (db.reservations.view t).sum (seatsHeld k) := by
  obtain ⟨p₀, d, hc, rfl, ha, hd⟩ := h.view hv
  have hacc := h.inv.ledger k p₀ hc
  have hb := hacc.balance
  have hr := hacc.reserved
  rw [TxTable.view_sum]
  simp only [PoolRow.shift]
  exact ⟨by omega, ha, hacc.sold_nonneg, by omega⟩

omit [DecidableEq τ] in
theorem ledger_commit {t : τ} {db : Db τ} (h : Owes t 0 db) :
    SeatLedger (db.pools.view t) (db.reservations.view t) := by
  intro k p hv
  obtain ⟨hb, ha, hs, hr⟩ := h.accounts hv
  rw [Pi.zero_apply, add_zero] at hr
  exact ⟨hb, ha, hr ▸ Table.sum_nonneg _ (seatsHeld_nonneg k), hs, hr⟩

theorem inv_commit {t : τ} {db : Db τ} (h : Owes t 0 db) : SeatInv (db.commit t) :=
  ⟨ledger_commit h, TxTable.locked_commit h.inv.pools t,
    TxTable.locked_commit h.inv.reservations t, h.inv.log⟩

/-- A transaction that owes nothing may commit. -/
theorem guarantee_commit {t : τ} {db : Db τ} (h : Owes t 0 db) :
    SeatGuarantee t db (db.commit t) where
  pools := TxTable.frame_commit h.inv.pools t
  reservations := TxTable.frame_commit h.inv.reservations t
  inv _ := inv_commit h
  rows k := by
    change (db.pools.view t).row k = none ↔ _
    constructor
    · intro hv
      simpa [TxTable.view] using (Option.or_eq_none_iff.1 hv).2
    · intro hc
      rcases hv : (db.pools.view t).row k with _ | p
      · rfl
      · obtain ⟨p₀, -, hc', -⟩ := h.view hv
        simp [hc] at hc'

theorem idle_commit {t : τ} {db : Db τ} (h : Owes t 0 db) : Idle t (db.commit t) :=
  ⟨inv_commit h, TxTable.commit_pending_self _ t, TxTable.commit_pending_self _ t⟩

/-! ## Statements -/

section Rules

variable {t : τ} {α β : Type}

/-- What a statement leaves: `K` of its answer, or a transaction that was rolled back. -/
def After (t : τ) (K : β → Db τ → Prop) : Except DbError β → Db τ → Prop
  | .ok b, db => K b db
  | .error _, db => Idle t db

omit [DecidableEq τ] in
theorem stable_after {K : β → Db τ → Prop} (hK : ∀ b, Stable (SeatRely t) (K b)) :
    ∀ r, Stable (SeatRely t) (After t K r)
  | .ok b => hK b
  | .error _ => stable_idle

/-- A program of transaction `t` that ends with the transaction closed. -/
abbrev Closes (t : τ) (p : Async (Db τ) DbError α) (db : Db τ) : Prop :=
  Safe (SeatRely t) (SeatGuarantee t) (fun _ => Idle t) p db

theorem closes_statement {P : Db τ → Prop} {K : β → Db τ → Prop} {fate : Fate}
    {s : Sync (Db τ) DbError β} {f : β → Async (Db τ) DbError α} {db : Db τ}
    (hP : Stable (SeatRely t) P) (hdb : P db) (hK : ∀ b, Stable (SeatRely t) (K b))
    (hinv : ∀ db, P db → SeatInv db)
    (hs : ∀ db r db', P db → s db = some (r, db') →
      SeatGuarantee t db db' ∧ ∀ b, r = .ok b → K b db')
    (hf : ∀ b db, K b db → Closes t (f b) db) :
    Closes t (Async.await ((tx t).statement fate s) >>= f) db := by
  refine Safe.await_bind P hP hdb (After t K) (stable_after hK) ?_ hf (fun _ _ h => h)
  intro db r db' h
  have hfail : SeatGuarantee t db (db.rollback t) ∧ Idle t (db.rollback t) :=
    ⟨guarantee_rollback t db, idle_rollback (hinv db h) t⟩
  refine TxEnds.wp_statement (x := tx t) (Q := fun r db' =>
    SeatGuarantee t db db' ∧ After t K r db')
    ?_ hfail r db'
  rintro (e | b) db₁ hsd
  · obtain ⟨hG, -⟩ := hs db _ _ h hsd
    have hI := hG.inv (hinv db h)
    have hR := guarantee_rollback t db₁
    exact ⟨⟨hG.pools.trans hR.pools, hG.reservations.trans hR.reservations,
      fun k => (hR.rows k).trans (hG.rows k), fun _ => inv_rollback hI t⟩, idle_rollback hI t⟩
  · obtain ⟨hG, hb⟩ := hs db _ _ h hsd
    exact ⟨hG, hb b rfl⟩

theorem closes_begin {P : Db τ → Prop} {fate : Fate} {f : Unit → Async (Db τ) DbError α}
    {db : Db τ} (hP : Stable (SeatRely t) P) (hdb : P db) (hinv : ∀ db, P db → SeatInv db)
    (hf : ∀ db, P db → Closes t (f ()) db) :
    Closes t (Async.await ((tx t).beginTx fate) >>= f) db := by
  refine closes_statement hP hdb (K := fun _ => P) (fun _ => hP) hinv ?_ (fun _ => hf)
  intro db r db' h hr
  simp only [Sync.pure_apply, Option.some.injEq, Prod.mk.injEq] at hr
  obtain ⟨rfl, rfl⟩ := hr
  exact ⟨guarantee_refl t db, fun _ _ => h⟩

theorem closes_commit {fate : Fate} {f : Unit → Async (Db τ) DbError α} {db : Db τ}
    (hdb : Owes t 0 db) (hf : ∀ db, Idle t db → Closes t (f ()) db) :
    Closes t (Async.await ((tx t).commitTx fate) >>= f) db := by
  refine Safe.await_bind (Owes t 0) (stable_owes 0) hdb (fun _ => Idle t) (fun _ => stable_idle)
    ?_ (fun _ => hf) (fun _ _ h => h)
  intro db r db' h hr
  unfold TxEnds.commitTx at hr
  rcases fate with _ | _ | _ <;> simp only [Option.some.injEq, Prod.mk.injEq] at hr <;>
    obtain ⟨-, rfl⟩ := hr
  · exact ⟨guarantee_commit h, idle_commit h⟩
  · exact ⟨guarantee_rollback t db, idle_rollback h.inv t⟩
  · exact ⟨guarantee_commit h, idle_commit h⟩

theorem closes_rollback {fate : Fate} {f : Unit → Async (Db τ) DbError α} {db : Db τ}
    (hdb : SeatInv db) (hf : ∀ db, Idle t db → Closes t (f ()) db) :
    Closes t (Async.await ((tx t).rollbackTx fate) >>= f) db := by
  refine Safe.await_bind SeatInv stable_inv hdb (fun _ => Idle t) (fun _ => stable_idle)
    ?_ (fun _ => hf) (fun _ _ h => h)
  intro db r db' h hr
  unfold TxEnds.rollbackTx at hr
  rcases fate with _ | _ | _ <;> simp only [Option.some.injEq, Prod.mk.injEq] at hr <;>
    obtain ⟨-, rfl⟩ := hr <;> exact ⟨guarantee_rollback t db, idle_rollback h t⟩

omit [DecidableEq τ] in
theorem closes_pure {a : α} {db : Db τ} (h : Idle t db) :
    Closes t (pure a : Async (Db τ) DbError α) db := Safe.pure stable_idle h

/-- The `catch` of both calls: roll back and rethrow. -/
theorem closes_tryCatch {x : Async (Db τ) DbError α} {fate : Fate} {db : Db τ}
    (h : Closes t x db) :
    Closes t (tryCatch x fun err => do
      Async.await ((tx t).rollbackTx fate)
      throw err) db := by
  refine Safe.tryCatch h (fun _ _ h => h) fun e db' h' => ?_
  exact closes_rollback h'.inv fun db'' h'' => Safe.throw stable_idle h''

end Rules

/-! ## Writing and locking rows -/

section Writes

variable {t : τ} {db : Db τ} {k : String}

omit [DecidableEq τ] in
theorem guarantee_lockPool (h : db.pools.Free t k) :
    SeatGuarantee t db { db with pools := db.pools.lock t k } :=
  ⟨TxTable.frame_lock h, .refl t _, fun _ => Iff.rfl,
    fun hI => ⟨hI.ledger, TxTable.locked_lock hI.pools h, hI.reservations, hI.log⟩⟩

theorem guarantee_writePool (h : db.pools.Free t k) (p : PoolRow) :
    SeatGuarantee t db { db with pools := db.pools.write t k p } :=
  ⟨TxTable.frame_write h p, .refl t _, fun _ => Iff.rfl,
    fun hI => ⟨hI.ledger, TxTable.locked_write hI.pools h p, hI.reservations, hI.log⟩⟩

theorem guarantee_writeReservation (h : db.reservations.Free t k) (r : ReservationRow) :
    SeatGuarantee t db { db with reservations := db.reservations.write t k r } :=
  ⟨.refl t _, TxTable.frame_write h r, fun _ => Iff.rfl,
    fun hI => ⟨hI.ledger, hI.pools, TxTable.locked_write hI.reservations h r, hI.log⟩⟩

omit [DecidableEq τ] in
theorem guarantee_log {e : PoolEvent} (h : e.Exact) :
    SeatGuarantee t db { db with poolLog := db.poolLog ++ [e] } := by
  refine ⟨.refl t _, .refl t _, fun _ => Iff.rfl,
    fun hI => ⟨hI.ledger, hI.pools, hI.reservations, fun e' he' => ?_⟩⟩
  rcases List.mem_append.1 he' with he' | he'
  · exact hI.log e' he'
  · exact List.mem_singleton.1 he' ▸ h

omit [DecidableEq τ] in
theorem SeatGuarantee.trans {db₁ db₂ db₃ : Db τ} (h : SeatGuarantee t db₁ db₂)
    (h' : SeatGuarantee t db₂ db₃) : SeatGuarantee t db₁ db₃ :=
  ⟨h.pools.trans h'.pools, h.reservations.trans h'.reservations,
    fun k => (h'.rows k).trans (h.rows k), h'.inv ∘ h.inv⟩

/-- Writing a pool row moves what is owed there. -/
theorem Owes.writePool {m m' : String → ℤ} (h : Owes t m db) (hf : db.pools.Free t k)
    {p : PoolRow} {d : ℤ} (hc : db.pools.committed.row k = some p) (ha : 0 ≤ p.availableQty - d)
    (hd : d + m' k = db.reservations.pendingSum t (seatsHeld k))
    (hm : ∀ k', k' ≠ k → m' k' = m k') :
    Owes t m' { db with pools := db.pools.write t k (p.shift d) } := by
  refine ⟨(guarantee_writePool hf _).inv h.inv, fun k' hk' hp => ?_, fun k' p' hp => ?_⟩
  · rw [TxTable.write_pending_self, Table.set_row] at hp
    split_ifs at hp with hkk
    rw [hm k' hkk]
    exact h.unwritten k' hk' hp
  · rw [TxTable.write_pending_self, Table.set_row] at hp
    split_ifs at hp with hkk
    · subst hkk
      exact ⟨p, d, hc, (Option.some.inj hp).symm, ha, hd⟩
    · obtain ⟨p₁, d₁, h₁⟩ := h.written k' p' hp
      rw [← hm k' hkk] at h₁
      exact ⟨p₁, d₁, h₁⟩

/-- A pool row whose quantities add up breaks no constraint. -/
theorem PoolRow.violated_eq_none {p : PoolRow}
    (hb : p.availableQty + p.reservedQty + p.soldQty = p.totalCapacity) (ht : 0 < p.totalCapacity)
    (ha : 0 ≤ p.availableQty) (hr : 0 ≤ p.reservedQty) (hs : 0 ≤ p.soldQty) :
    p.violated = none := by
  unfold violated
  rw [if_neg (by simpa using hb), if_neg (by omega), if_neg (by omega), if_neg (by omega),
    if_neg (by omega)]

omit [DecidableEq τ] in
theorem free_of_lockedBy {V : TxTable τ String PoolRow} (h : V.lockedBy k = some t) :
    V.Free t k := fun t' ht' => by
  rw [h] at ht'
  exact (Option.some.inj ht').symm

end Writes

/-! ## `reserveAtomic` -/

section Reserve

variable {t : τ} {db db' : Db τ} {k : String}

theorem selectPoolForUpdate_spec {r : Except DbError (Option ℤ)} (h : Idle t db)
    (hs : selectPoolForUpdate t k db = some (r, db')) :
    SeatGuarantee t db db' ∧ ∀ a, r = .ok a → Idle t db' ∧ ∀ n, a = some n →
      ∃ p, p.availableQty = n ∧ HoldsPool t k p db' := by
  unfold selectPoolForUpdate at hs
  have hv : (db.pools.view t).row k = db.pools.committed.row k := by
    rw [TxTable.view, h.pools, Table.overlay_empty]
  rw [hv] at hs
  rcases hc : db.pools.committed.row k with _ | p <;> rw [hc] at hs <;> simp only [] at hs
  · simp only [Option.some.injEq, Prod.mk.injEq] at hs
    obtain ⟨rfl, rfl⟩ := hs
    refine ⟨guarantee_refl t db, fun a ha => ⟨h, fun n hn => ?_⟩⟩
    simp only [Except.ok.injEq] at ha
    simp [← ha] at hn
  · split_ifs at hs with hf
    simp only [Option.some.injEq, Prod.mk.injEq] at hs
    obtain ⟨rfl, rfl⟩ := hs
    have hG := guarantee_lockPool hf
    refine ⟨hG, fun a ha => ⟨⟨hG.inv h.inv, h.pools, h.reservations⟩, fun n hn => ⟨p, ?_, ?_⟩⟩⟩
    · simp only [Except.ok.injEq] at ha
      simpa [← ha] using hn
    · exact ⟨TxTable.lock_lockedBy _ t k, hc, by simp [h.pools]⟩

/-- Between INSERT and UPDATE: the reservation is written, and its quantity owed to the pool. -/
def Reserving (t : τ) (k : String) (q : ℤ) (p : PoolRow) (db : Db τ) : Prop :=
  0 < q ∧ Owes t (Pi.single k q) db ∧ HoldsPool t k p db

omit [DecidableEq τ] in
theorem stable_reserving (q : ℤ) (p : PoolRow) : Stable (SeatRely t) (Reserving t k q p) :=
  (Stable.const _).and ((stable_owes _).and (stable_holdsPool k p))

/-- A transaction that has written nothing but a hold owes its quantity to the pool. -/
theorem Idle.owes_insert (h : Idle t db) {id : String} {r : ReservationRow}
    (hf : db.reservations.Free t id) (hc : db.reservations.committed.row id = none)
    (hr : r.status.HoldsSeats) :
    Owes t (Pi.single r.ticketTypeId r.quantity)
      { db with reservations := db.reservations.write t id r } := by
  refine ⟨(guarantee_writeReservation hf r).inv h.inv, fun k' _ _ => ?_, fun k' p' hp' => ?_⟩
  · -- the new row is the transaction's only version
    rw [TxTable.pendingSum_write (by simp [h.reservations]), hc,
      TxTable.pendingSum_of_empty h.reservations, Option.elim_none, Pi.single_apply]
    simp [seatsHeld, hr, eq_comm]
  · rw [h.pools] at hp'
    simp at hp'

theorem insertReservation_spec {id userId : String} {q : ℤ} {e : Time} {p : PoolRow}
    {r : Except DbError Unit} (h : Idle t db) (hp : HoldsPool t k p db)
    (hs : insertReservation t id userId k q e db = some (r, db')) :
    SeatGuarantee t db db' ∧ ∀ u, r = .ok u → Reserving t k q p db' := by
  unfold insertReservation at hs
  split_ifs at hs with hq hf
  · rw [TxTable.view, h.reservations, Table.overlay_empty] at hs
    rcases hc : db.reservations.committed.row id with _ | r₀ <;> rw [hc] at hs <;>
      simp only [Option.some.injEq, Prod.mk.injEq] at hs <;> obtain ⟨rfl, rfl⟩ := hs
    · exact ⟨guarantee_writeReservation hf ⟨userId, k, q, .active, e, hq⟩, fun _ _ =>
        ⟨hq, h.owes_insert (r := ⟨userId, k, q, .active, e, hq⟩) hf hc trivial, hp⟩⟩
    · exact ⟨guarantee_refl t _, fun u hu => by simp at hu⟩
  · simp only [Option.some.injEq, Prod.mk.injEq] at hs
    obtain ⟨rfl, rfl⟩ := hs
    exact ⟨guarantee_refl t _, fun u hu => by simp at hu⟩

theorem updatePoolReserve_spec {q : ℤ} {p : PoolRow} {r : Except DbError ℕ}
    (h : Reserving t k q p db) (hs : updatePoolReserve t k q db = some (r, db')) :
    SeatGuarantee t db db' ∧ ∀ n, r = .ok n → SeatInv db' ∧ (n ≠ 0 → Owes t 0 db') := by
  obtain ⟨hq, hO, hl, hc, hp⟩ := h
  have hv : (db.pools.view t).row k = some p := by
    rw [TxTable.view, Table.overlay_row_of_none hp, hc]
  have hf : db.pools.Free t k := free_of_lockedBy hl
  unfold updatePoolReserve at hs
  rw [hv] at hs
  simp only [if_pos hf] at hs
  split_ifs at hs with hle
  · obtain ⟨hb, ha, hsold, -⟩ := hO.accounts hv
    have hres := (hO.inv.ledger k p hc).reserved_nonneg
    have hviol : (p.shift q).violated = none := by
      refine PoolRow.violated_eq_none ?_ ?_ ?_ ?_ ?_ <;> simp only [PoolRow.shift] <;> omega
    have hdb : db' = { db with pools := db.pools.write t k (p.shift q) } ∧ r = .ok 1 := by
      have hw : writePool t k (p.shift q) db
          = some (.ok (), { db with pools := db.pools.write t k (p.shift q) }) := by
        unfold writePool
        rw [hviol]
      change (writePool t k (p.shift q) >>= fun _ => pure 1) db = _ at hs
      rw [Sync.bind_apply, hw] at hs
      simp only [Sync.pure_apply, Option.some.injEq, Prod.mk.injEq] at hs
      exact ⟨hs.2.symm, hs.1.symm⟩
    obtain ⟨rfl, rfl⟩ := hdb
    have hG := guarantee_writePool hf (p.shift q)
    have hsum := hO.unwritten k (by simp [hc]) hp
    rw [Pi.single_eq_same] at hsum
    refine ⟨hG, fun n _ => ⟨hG.inv hO.inv, fun _ => ?_⟩⟩
    refine hO.writePool hf hc (by omega) (by rw [Pi.zero_apply, add_zero, hsum]) fun k' hk' => ?_
    rw [Pi.zero_apply, Pi.single_eq_of_ne hk']
  · simp only [Option.some.injEq, Prod.mk.injEq] at hs
    obtain ⟨rfl, rfl⟩ := hs
    refine ⟨guarantee_refl t _, fun n hn => ⟨hO.inv, fun h0 => absurd ?_ h0⟩⟩
    simpa using hn.symm

theorem closes_reserveAtomic (env : ReserveEnv) (q : ℤ) (userId : String) (h : Idle t db) :
    Closes t (reserveAtomic env t k q userId) db := by
  have hsold : ∀ db : Db τ, SeatInv db → Closes t (do
      Async.await ((tx t).rollbackTx env.onRollback)
      pure soldOut) db :=
    fun db hI => closes_rollback hI fun _ h' => closes_pure h'
  unfold reserveAtomic
  refine closes_tryCatch (closes_begin stable_idle h (fun _ h => h.inv) fun db h => ?_)
  refine closes_statement stable_idle h
    (K := fun a db => Idle t db ∧ ∀ n, a = some n → ∃ p, p.availableQty = n ∧ HoldsPool t k p db)
    ?_ (fun _ h => h.inv) (fun _ _ _ => selectPoolForUpdate_spec) ?_
  · intro a db db' ⟨hI, hn⟩ hr
    refine ⟨stable_idle db db' hI hr, fun n ha => ?_⟩
    obtain ⟨p, hp, hh⟩ := hn n ha
    exact ⟨p, hp, stable_holdsPool k p db db' hh hr⟩
  rintro (_ | n) db ⟨hI, hn⟩
  · exact hsold db hI.inv
  obtain ⟨p, -, hp⟩ := hn n rfl
  simp only []
  split_ifs with hlt
  · exact hsold db hI.inv
  refine closes_statement (stable_idle.and (stable_holdsPool k p)) ⟨hI, hp⟩
    (K := fun _ => Reserving t k q p) (fun _ => stable_reserving q p) (fun _ h => h.1.inv)
    (fun _ _ _ h => insertReservation_spec h.1 h.2) fun _ db h => ?_
  refine closes_statement (stable_reserving q p) h
    (K := fun n db => SeatInv db ∧ (n ≠ 0 → Owes t 0 db)) ?_ (fun _ h => h.2.1.inv)
    (fun _ _ _ => updatePoolReserve_spec) fun n db h => ?_
  · exact fun n db db' h hr => ⟨stable_inv db db' h.1 hr, fun h0 =>
      stable_owes 0 db db' (h.2 h0) hr⟩
  split_ifs with h0
  · exact hsold db h.1
  · exact closes_commit (h.2 h0) fun _ h' => closes_pure h'

end Reserve

end LaunchPad
