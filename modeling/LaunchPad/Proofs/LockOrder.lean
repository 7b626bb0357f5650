import LaunchPad.Lib.Progress
import LaunchPad.Proofs.Holding

/-!
# The order of the pools' locks

An expiring call updates the pools in the order of its map `capacityByTicketType`, which is the
order in which the UPDATE happened to return the rows. Whoever holds a pool and waits for another
is such a call, and the one it holds comes earlier in its map (`locksBefore_of_waits`). So calls
wait in a circle only where their maps disagree.
-/

namespace LaunchPad

open Interleave Relation Rows

/-- What a row lock is of. -/
inductive LockRow
  | pool (ticketTypeId : String)
  | reservation (id : String)
deriving DecidableEq

/-- The rows whose locks the next statement of a call needs. SKIP LOCKED needs none, and the id an
INSERT takes is new. -/
def SeatPhase.Needs : SeatCall → SeatPhase → LockRow → Prop
  | .reserveAtomic _ k _ _, .select, row => row = .pool k
  | .reserveAtomic _ k _ _, .update, row => row = .pool k
  | .expirePendingReservations .., .mark ids, row => ∃ id ∈ ids, row = .reservation id
  | .expirePendingReservations .., .release _ _ k _ _, row => row = .pool k
  | _, _, _ => False

variable {τ : Type} [DecidableEq τ]

def Db.holder (db : Db τ) : LockRow → Option τ
  | .pool k => db.pools.lockedBy k
  | .reservation id => db.reservations.lockedBy id

section Runs

variable (calls : τ → SeatCall) (h : List (Taken τ (Db τ))) (c : Config τ (Db τ) DbError SeatReply)

/-- After the steps `h`, the call cannot go on, and needs the lock of a row it does not hold. -/
def Waits (t : τ) (row : LockRow) : Prop :=
  c.step t = none ∧ ((seats fun t => .call (calls t)).phases h t).Needs (calls t) row
    ∧ c.world.holder row ≠ some t

/-- A call waits for itself, through others. -/
def Deadlock : Prop :=
  ∃ t, TransGen (WaitsFor (Waits calls h c) fun t row => c.world.holder row = some t) t t

end Runs

/-! ## The order -/

/-- The pools that a call updates, in its order. -/
def poolOrder (R : Table String ReservationRow) (returned : List String) : List String :=
  (capacityByTicketType (rowsOf R returned)).map Prod.fst

/-- Some call's map has the one pool before the other. -/
def LocksBefore (R : Table String ReservationRow) (calls : τ → SeatCall) (k k' : String) : Prop :=
  ∃ t env n scope, calls t = .expirePendingReservations env n scope
    ∧ [k, k'].Sublist (poolOrder R env.returned)

variable {calls : τ → SeatCall} {P : Table String PoolRow} {R : Table String ReservationRow}
  {h : List (Taken τ (Db τ))} {c : Config τ (Db τ) DbError SeatReply}

/-- Calls wait for pools only: the reservations an expiring one updates are its own. -/
theorem pool_of_waits (hholding : ∀ t, Holding R t (calls t)
    ((seats fun t => .call (calls t)).phases h t) c.world) {t : τ} {row : LockRow}
    (hw : Waits calls h c t row) : ∃ k, row = .pool k := by
  obtain ⟨-, hneeds, hfree⟩ := hw
  have hwritten := (hholding t).written
  generalize (seats fun t => .call (calls t)).phases h t = p at hneeds hwritten
  rcases hc : calls t with ⟨env, k, q, u⟩ | ⟨env, n, scope⟩ <;> rw [hc] at hneeds hwritten <;>
    cases p <;> simp only [SeatPhase.Needs] at hneeds
  case reserveAtomic.select => exact ⟨k, hneeds⟩
  case reserveAtomic.update => exact ⟨k, hneeds⟩
  case expirePendingReservations.mark =>
    obtain ⟨id, hid, rfl⟩ := hneeds
    exact absurd (hwritten.2 id hid) hfree
  case expirePendingReservations.release => exact ⟨_, hneeds⟩

/-- The pool a waiting call holds comes before the one it waits for in its map. -/
theorem locksBefore_of_waits (hholding : ∀ t, Holding R t (calls t)
    ((seats fun t => .call (calls t)).phases h t) c.world) {t : τ} {k k' : String}
    (hk : c.world.pools.lockedBy k = some t) (hw : Waits calls h c t (.pool k')) :
    LocksBefore R calls k k' := by
  obtain ⟨-, hneeds, hfree⟩ := hw
  obtain ⟨hpools, hwritten⟩ := hholding t
  have hmem := hpools k hk
  generalize (seats fun t => .call (calls t)).phases h t = p at hneeds hwritten hmem
  rcases hc : calls t with ⟨env, k₀, q, u⟩ | ⟨env, n, scope⟩ <;> rw [hc] at hneeds hwritten hmem <;>
    cases p <;> simp only [SeatPhase.Needs, LockRow.pool.injEq, reduceCtorEq, and_false,
      exists_false] at hneeds
  case reserveAtomic.select => simp [SeatPhase.poolsHeld] at hmem
  case reserveAtomic.update =>
    obtain ⟨-, p, hb⟩ := hwritten
    exact absurd (hneeds ▸ hb.lock) hfree
  case expirePendingReservations.release i rows k₁ q rest =>
    obtain ⟨rfl, hdrop⟩ := hwritten
    subst hneeds
    refine ⟨t, env, n, scope, hc, ?_⟩
    unfold poolOrder
    rw [← List.take_append_drop i (capacityByTicketType (rowsOf R env.returned)), List.map_append,
      hdrop]
    exact (List.singleton_sublist.2 hmem).append (List.singleton_sublist.2 (by simp))

/-- Where the maps of all calls agree with one order of the pools, no run ends in a deadlock. -/
theorem no_deadlock_of_order (hrun : (seatCalls (Db.ofTables P R) calls).Run h c)
    (horder : ∀ k, ¬ TransGen (LocksBefore R calls) k k) : ¬ Deadlock calls h c := by
  obtain ⟨ht, -⟩ := trace_of_seat_run hrun
  obtain ⟨-, hholding⟩ := holding_of_trace ht
  rintro ⟨t, hcycle⟩
  have horder' : ∀ t k k', c.world.pools.lockedBy k = some t → Waits calls h c t (.pool k') →
      LocksBefore R calls k k' := fun t k k' hk hw => locksBefore_of_waits hholding hk hw
  refine not_transGen_waitsFor horder' horder t (TransGen.mono ?_ _ _ hcycle)
  rintro t t' ⟨row, hw, hh⟩
  obtain ⟨k, rfl⟩ := pool_of_waits hholding hw
  exact ⟨k, hw, hh⟩

/-- Two pools, with two expired holds each. -/
def tierPools : Table String PoolRow := (Table.empty.set "A" ⟨2, 0, 2, 0⟩).set "B" ⟨2, 0, 2, 0⟩

def tierReservations : Table String ReservationRow :=
  (((Table.empty.set "a1" ⟨"ann", "A", 1, .pending, 1, Int.one_pos⟩).set "b1"
    ⟨"ann", "B", 1, .pending, 2, Int.one_pos⟩).set "b2"
    ⟨"bob", "B", 1, .pending, 3, Int.one_pos⟩).set "a2" ⟨"bob", "A", 1, .pending, 4, Int.one_pos⟩

/-- Two workers on batches of two, the second with its rows returned in this order. -/
def tierWorkers (returned : List String) (t : Bool) : SeatCall :=
  .expirePendingReservations ⟨10, if t then ["b2", "a2"] else ["a1", "b1"],
    if t then returned else ["a1", "b1"], .answered, .answered, .answered, fun _ => .answered,
    .answered, .answered⟩ 2 none

theorem tierWorkers_agree_isSome :
    ((seatCalls (Db.ofTables tierPools tierReservations) (tierWorkers ["a2", "b2"])).history
      [false, true, false, true, false, true, false]).isSome := by decide

/-- Both go through the pools from A to B: the second waits for the first, and no more. -/
theorem no_deadlock_agree :
    ∃ h c, (seatCalls (Db.ofTables tierPools tierReservations) (tierWorkers ["a2", "b2"])).Run h c
      ∧ c.step true = none ∧ ¬ Deadlock (tierWorkers ["a2", "b2"]) h c := by
  have hrun := Config.run_of_history _ (Option.eq_some_of_isSome tierWorkers_agree_isSome)
  refine ⟨_, _, hrun, by decide, no_deadlock_of_order hrun fun k hk => ?_⟩
  have hAB : ∀ k k', LocksBefore tierReservations (tierWorkers ["a2", "b2"]) k k' →
      k = "A" ∧ k' = "B" := by
    rintro k k' ⟨t, env, n, scope, hc, hsub⟩
    have horder : poolOrder tierReservations env.returned = ["A", "B"] := by
      simp only [tierWorkers, SeatCall.expirePendingReservations.injEq] at hc
      rw [← hc.1]
      cases t <;> decide
    rw [horder] at hsub
    have he := hsub.eq_of_length rfl
    simpa using he
  obtain ⟨k', h₁, -⟩ := TransGen.head'_iff.1 hk
  obtain ⟨k'', -, h₂⟩ := TransGen.tail'_iff.1 hk
  have hA := (hAB _ _ h₁).1
  rw [(hAB _ _ h₂).2] at hA
  exact absurd hA (by decide)

theorem tierWorkers_disagree_isSome :
    ((seatCalls (Db.ofTables tierPools tierReservations) (tierWorkers ["b2", "a2"])).history
      [false, true, false, true, false, true, false, true]).isSome := by decide

/-- The first has A and waits for B, the second has B and waits for A. -/
theorem deadlock_disagree :
    ¬ ∀ (h : List (Taken Bool (Db Bool))) (c : Config Bool (Db Bool) DbError SeatReply),
      (seatCalls (Db.ofTables tierPools tierReservations) (tierWorkers ["b2", "a2"])).Run h c →
        ¬ Deadlock (tierWorkers ["b2", "a2"]) h c := by
  intro hno
  have hrun := Config.run_of_history _ (Option.eq_some_of_isSome tierWorkers_disagree_isSome)
  refine hno _ _ hrun ⟨false, .tail (b := true) (.single ?_) ?_⟩
  · exact ⟨.pool "B", ⟨by decide, rfl, by decide⟩, by decide⟩
  · exact ⟨.pool "A", ⟨by decide, rfl, by decide⟩, by decide⟩

end LaunchPad
