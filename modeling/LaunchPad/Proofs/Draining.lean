import LaunchPad.Lib.Serial
import LaunchPad.Proofs.ExpiryCall
import Mathlib.Algebra.Ring.Nat

/-!
# Draining the expired holds

Calls of `expirePendingReservations` at one clock reading and scope, one after the other. After any
of them the tables are `expireRows` and `returnSeats` of the rows expired so far (`Drained`), and a
call adds as many of the remaining ones as its batch holds (`Drained.scan`). So where the last call
found none, all are expired: the split into batches and the order within one leave no trace.
-/

namespace LaunchPad

open Interleave Rows
open scoped BigOperators

section Tables

variable {P : Table String PoolRow} {R : Table String ReservationRow} {ids ids' : Finset String}
  {now : Time} {scope : Option String}

theorem eligible_expireRows :
    eligible (expireRows R ids) now scope = eligible R now scope \ ids := by
  ext id
  simp only [Finset.mem_sdiff, mem_eligible, expireRows, Table.mapRows_row, Option.map_eq_some_iff]
  constructor
  · rintro ⟨_, ⟨r, hr, rfl⟩, hexp⟩
    split_ifs at hexp with hid
    · simp [ReservationRow.Expirable] at hexp
    · exact ⟨⟨r, hr, hexp⟩, hid⟩
  · rintro ⟨⟨r, hr, hexp⟩, hid⟩
    exact ⟨r, ⟨r, hr, by rw [if_neg hid]⟩, hexp⟩

theorem seatsOf_expireRows (k id : String) : seatsOf (expireRows R ids) k id = seatsOf R k id := by
  simp only [seatsOf, expireRows, Table.mapRows_row]
  cases R.row id with
  | none => rfl
  | some r =>
    rw [Option.map_some, Option.elim_some, Option.elim_some]
    split_ifs <;> rfl

theorem expireRows_union : expireRows (expireRows R ids) ids' = expireRows R (ids ∪ ids') := by
  ext1 id
  simp only [expireRows, Table.mapRows_row, Option.map_map]
  congr 1
  funext r
  simp only [Function.comp_apply, Finset.mem_union]
  split_ifs <;> simp_all

theorem PoolRow.shift_shift (p : PoolRow) (d d' : ℤ) : (p.shift d).shift d' = p.shift (d + d') := by
  simp only [PoolRow.shift, PoolRow.mk.injEq, true_and, and_true]
  omega

theorem returnSeats_union (h : Disjoint ids ids') :
    returnSeats (returnSeats P R ids) (expireRows R ids) ids' = returnSeats P R (ids ∪ ids') := by
  ext1 k
  simp only [returnSeats, Table.mapRows_row, Option.map_map]
  congr 1
  funext p
  simp only [Function.comp_apply, PoolRow.shift_shift, seatsOf_expireRows, Finset.sum_union h]
  congr 1
  omega

theorem returnSeats_empty : returnSeats P R ∅ = P := by
  ext1 k
  simp only [returnSeats, Table.mapRows_row, Finset.sum_empty]
  cases P.row k <;> simp [PoolRow.shift]

theorem expireRows_empty : expireRows R ∅ = R := by
  ext1 id
  simp [expireRows]

end Tables

variable {τ : Type} [DecidableEq τ] {db db' : Db τ}

/-- A call with this batch size may return this, whatever answers the database gives it. -/
def ScanCall (now : Time) (scope : Option String) (c : ℤ × ExpiryResult) (db db' : Db τ) : Prop :=
  ∃ env t, env.now = now
    ∧ (expirePendingReservations env t c.1 scope).run db = some (.ok c.2, db')

/-- The `i`-th call has the batch size `sizes i`. -/
def Sized (sizes : ℕ → ℤ) (calls : List (ℤ × ExpiryResult)) : Prop :=
  calls.map Prod.fst = (List.range calls.length).map sizes

/-- Calls with the batch sizes `sizes`, until one returns `expiredCount` 0. -/
structure DrainsAlike (sizes : ℕ → ℤ) (now : Time) (scope : Option String) (db : Db τ) : Prop where
  /-- There is always a next call, and one with any batch that holds all rows that are due. -/
  answers : ∀ calls db₁, Serial (ScanCall now scope) db calls db₁ →
    ∃ r db₂, ScanCall now scope (sizes calls.length, r) db₁ db₂
  answersOnce : ∀ m : ℤ, (eligible db.reservations.committed now (truthy scope)).card ≤ m →
    ∃ r db₁, ScanCall now scope (m, r) db db₁
  /-- With the one that returns 0, the calls are at most one more than the rows that are due. -/
  bounded : ∀ calls db₁, Serial (ScanCall now scope) db calls db₁ → Sized sizes calls →
    (∀ c ∈ calls, c.2.expiredCount ≠ 0) →
    calls.length ≤ (eligible db.reservations.committed now (truthy scope)).card
  /-- The one that returns 0 finds all rows that were due expired, and their seats back in the
  pools. -/
  drained : ∀ calls r db₁ db₂, Serial (ScanCall now scope) db calls db₁ → Sized sizes calls →
    ScanCall now scope (sizes calls.length, r) db₁ db₂ → r.expiredCount = 0 →
    let due := eligible db.reservations.committed now (truthy scope)
    db₂.reservations.committed = expireRows db.reservations.committed due
      ∧ db₂.pools.committed = returnSeats db.pools.committed db.reservations.committed due
  confluent : ∀ calls r db₁ db₂, Serial (ScanCall now scope) db calls db₁ → Sized sizes calls →
    ScanCall now scope (sizes calls.length, r) db₁ db₂ → r.expiredCount = 0 →
    ∀ (m : ℤ) r' db', (eligible db.reservations.committed now (truthy scope)).card ≤ m →
      ScanCall now scope (m, r') db db' → SameTables db' db₂
  idle : ∀ calls r db₁ db₂, Serial (ScanCall now scope) db calls db₁ → Sized sizes calls →
    ScanCall now scope (sizes calls.length, r) db₁ db₂ → r.expiredCount = 0 →
    ∀ further db₃, Serial (ScanCall now scope) db₂ further db₃ →
      SameTables db₂ db₃ ∧ ∀ c ∈ further, c.2 = ⟨0, 0, []⟩

/-- The tables are `P` and `R` with the rows `ids` expired, which were due. -/
structure Drained (P : Table String PoolRow) (R : Table String ReservationRow) (now : Time)
    (scope : Option String) (ids : Finset String) (db : Db τ) : Prop where
  quiet : Quiet db
  inv : SeatInv db
  due : ids ⊆ eligible R now scope
  reservations : db.reservations.committed = expireRows R ids
  pools : db.pools.committed = returnSeats P R ids

variable {P : Table String PoolRow} {R : Table String ReservationRow} {ids : Finset String}
  {now : Time} {scope : Option String} {sizes : ℕ → ℤ}

theorem drained_ofTables (h : SeatLedger P R) (now : Time) (scope : Option String) :
    Drained P R now scope ∅ (Db.ofTables P R : Db τ) :=
  ⟨⟨rfl, rfl⟩, inv_ofTables h, Finset.empty_subset _, expireRows_empty.symm, returnSeats_empty.symm⟩

omit [DecidableEq τ] in
theorem Scanned.eq_zero {batchSize : ℤ} {r : ExpiryResult}
    (h : Scanned now scope batchSize ∅ db r db') : r = ⟨0, 0, []⟩ := by
  obtain ⟨count, released, processedIds⟩ := r
  obtain rfl : processedIds = [] := List.toFinset_eq_empty_iff _ |>.1 h.processed
  obtain rfl : count = 0 := h.count
  obtain rfl : released = 0 := h.released
  rfl

/-- A call expires as many of the rows left as its batch holds. -/
theorem Drained.scan {c : ℤ × ExpiryResult} (h : Drained P R now (truthy scope) ids db)
    (hc : ScanCall now scope c db db') :
    ∃ new, Disjoint ids new ∧ Drained P R now (truthy scope) (ids ∪ new) db'
      ∧ c.2.expiredCount = new.card
      ∧ (new.card : ℤ) = min c.1 (eligible R now (truthy scope) \ ids).card
      ∧ (new = ∅ → c.2 = ⟨0, 0, []⟩) := by
  obtain ⟨env, t, rfl, hrun⟩ := hc
  have hs := expirePendingReservations_scans env t c.1 scope h.quiet _ _ hrun
  obtain ⟨hinv, hpools⟩ := hs.pools h.inv
  have hdue := hs.due
  have hcard := hs.card
  rw [h.reservations, eligible_expireRows] at hdue hcard
  have hdisjoint : Disjoint ids env.picked.toFinset :=
    Finset.disjoint_of_subset_right hdue Finset.disjoint_sdiff
  refine ⟨_, hdisjoint, ⟨hs.quiet, hinv,
    Finset.union_subset h.due (hdue.trans Finset.sdiff_subset), ?_, ?_⟩, hs.count, hcard,
    fun hnew => Scanned.eq_zero (hnew ▸ hs)⟩
  · rw [hs.reservations, h.reservations, expireRows_union]
  · rw [hpools, h.pools, h.reservations, returnSeats_union hdisjoint]

/-- After any calls, as many rows are expired as they returned. -/
theorem Drained.scans {calls : List (ℤ × ExpiryResult)} (h : Drained P R now (truthy scope) ids db)
    (hs : Serial (ScanCall now scope) db calls db') :
    ∃ ids', Drained P R now (truthy scope) ids' db' ∧ ids ⊆ ids'
      ∧ ids'.card = ids.card + (calls.map fun c => c.2.expiredCount).sum := by
  induction hs generalizing ids with
  | nil => exact ⟨ids, h, subset_rfl, by simp⟩
  | cons hc _ ih =>
    obtain ⟨new, hdisjoint, h₁, hcount, -, -⟩ := h.scan hc
    obtain ⟨ids', h', hsub, hcard⟩ := ih h₁
    refine ⟨ids', h', Finset.subset_union_left.trans hsub, ?_⟩
    rw [hcard, Finset.card_union_of_disjoint hdisjoint, List.map_cons, List.sum_cons, hcount]
    omega

/-- A call that returns 0 found every row that was due expired. -/
theorem Drained.all {n : ℤ} {r : ExpiryResult} (h : Drained P R now (truthy scope) ids db)
    (hn : 1 ≤ n) (hc : ScanCall now scope (n, r) db db') (hr : r.expiredCount = 0) :
    Drained P R now (truthy scope) (eligible R now (truthy scope)) db' := by
  obtain ⟨new, -, h', hcount, hcard, -⟩ := h.scan hc
  have hnew : new.card = 0 := hcount.symm.trans hr
  have hleft : eligible R now (truthy scope) \ ids = ∅ := Finset.card_eq_zero.1 (by omega)
  rw [Finset.card_eq_zero.1 hnew, Finset.union_empty] at h'
  rwa [← Finset.Subset.antisymm h.due (Finset.sdiff_eq_empty_iff_subset.1 hleft)]

/-- One call whose batch holds every row that is due expires them all. -/
theorem Drained.once {n : ℤ} {r : ExpiryResult} (h : Drained P R now (truthy scope) ∅ db)
    (hn : (eligible R now (truthy scope)).card ≤ n) (hc : ScanCall now scope (n, r) db db') :
    Drained P R now (truthy scope) (eligible R now (truthy scope)) db' := by
  obtain ⟨new, -, h', -, hcard, -⟩ := h.scan hc
  rw [Finset.empty_union] at h'
  rw [Finset.sdiff_empty, min_eq_right hn] at hcard
  rwa [← Finset.eq_of_subset_of_card_le h'.due (by omega)]

omit [DecidableEq τ] in
theorem Drained.sameTables (h : Drained P R now scope ids db) (h' : Drained P R now scope ids db') :
    SameTables db db' :=
  ⟨h'.pools.trans h.pools.symm, h'.reservations.trans h.reservations.symm⟩

/-- With every row that was due expired, calls return zeros and change nothing. -/
theorem Drained.idle {calls : List (ℤ × ExpiryResult)}
    (h : Drained P R now (truthy scope) (eligible R now (truthy scope)) db)
    (hs : Serial (ScanCall now scope) db calls db') :
    Drained P R now (truthy scope) (eligible R now (truthy scope)) db'
      ∧ ∀ c ∈ calls, c.2 = ⟨0, 0, []⟩ := by
  induction hs with
  | nil => exact ⟨h, by simp⟩
  | cons hc _ ih =>
    obtain ⟨new, hdisjoint, h₁, -, -, hzero⟩ := h.scan hc
    obtain rfl : new = ∅ :=
      Finset.disjoint_self_iff_empty _ |>.1
        (hdisjoint.mono_left (Finset.subset_union_right.trans h₁.due))
    rw [Finset.union_empty] at h₁
    obtain ⟨h', hrest⟩ := ih h₁
    exact ⟨h', List.forall_mem_cons.2 ⟨hzero rfl, hrest⟩⟩

theorem Drained.answers [Inhabited τ] {n : ℤ} (h : Drained P R now scope ids db) (hn : 0 ≤ n)
    (now' : Time) (scope' : Option String) :
    ∃ r db₁, ScanCall now' scope' (n, r) db db₁ := by
  obtain ⟨env, r, db₁, hnow, hrun⟩ := exists_scan h.quiet h.inv default now' scope' hn
  exact ⟨r, db₁, env, default, hnow, hrun⟩

/-- From every database whose ledger is whole, calls with any batch sizes from 1 on drain the rows
that are due in at most one call more than there are, and leave what one call leaves: all of these
rows EXPIRED, and their seats in the pools again. -/
theorem draining_confluent [Inhabited τ] (hledger : SeatLedger P R) (now : Time)
    (scope : Option String) (hsizes : ∀ i, 1 ≤ sizes i) :
    DrainsAlike sizes now scope (Db.ofTables P R : Db τ) := by
  have hstart := drained_ofTables (τ := τ) hledger now (truthy scope)
  have hall : ∀ calls r db₁ db₂, Serial (ScanCall now scope) (Db.ofTables P R : Db τ) calls db₁ →
      ScanCall now scope (sizes calls.length, r) db₁ db₂ → r.expiredCount = 0 →
      Drained P R now (truthy scope) (eligible R now (truthy scope)) db₂ := by
    intro calls r db₁ db₂ hs hc hr
    obtain ⟨ids, h, -⟩ := hstart.scans hs
    exact h.all (hsizes _) hc hr
  refine ⟨fun calls db₁ hs => ?_, fun m hm => ?_, fun calls db₁ hs _ hne => ?_,
    fun calls r db₁ db₂ hs _ hc hr => ?_, fun calls r db₁ db₂ hs _ hc hr m r' db' hm hc' => ?_,
    fun calls r db₁ db₂ hs _ hc hr further db₃ hs' => ?_⟩
  · obtain ⟨ids, h, -⟩ := hstart.scans hs
    exact h.answers (zero_le_one.trans (hsizes _)) now scope
  · exact hstart.answers (by omega) now scope
  · obtain ⟨ids, h, -, hcard⟩ := hstart.scans hs
    have hlen : calls.length ≤ (calls.map fun c => c.2.expiredCount).sum := by
      rw [← List.length_map (f := fun c => c.2.expiredCount)]
      refine List.length_le_sum_of_one_le _ fun n hn => ?_
      obtain ⟨c, hc, rfl⟩ := List.mem_map.1 hn
      exact Nat.one_le_iff_ne_zero.2 (hne c hc)
    have hle := Finset.card_le_card h.due
    rw [Finset.card_empty, zero_add] at hcard
    change calls.length ≤ (eligible R now (truthy scope)).card
    omega
  · have h := hall calls r db₁ db₂ hs hc hr
    exact ⟨h.reservations, h.pools⟩
  · exact (hstart.once hm hc').sameTables (hall calls r db₁ db₂ hs hc hr)
  · have h := hall calls r db₁ db₂ hs hc hr
    obtain ⟨h', hzero⟩ := h.idle hs'
    exact ⟨h.sameTables h', hzero⟩

theorem draining_confluent_vip :
    DrainsAlike (fun _ => 1) 13 none (Db.ofTables vipPools vipReservations : Db Bool) :=
  draining_confluent vip_ledger 13 none fun _ => le_rfl

end LaunchPad
