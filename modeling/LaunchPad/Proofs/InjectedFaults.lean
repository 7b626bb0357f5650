import LaunchPad.InjectedFaults
import LaunchPad.Lib.Erasure
import LaunchPad.Lib.Noninterference
import LaunchPad.Proofs.Expiry

/-!
# Nothing of a faulty transaction stays

A call that throws in the middle of its transaction rolls it back and never commits. What it has
locked and written meanwhile only makes others wait, and a row it has inserted no scan finds. So
any run is one of the other calls alone, once the steps of the faulty ones are left out of its
schedule.
-/

namespace LaunchPad

open Interleave Rows

variable {τ : Type} [DecidableEq τ]

/-- `db'` is `db` without the transactions `gone`. -/
structure FaultsErased (gone : τ → Prop) (db db' : Db τ) : Prop where
  pools : TxTable.Erased gone db.pools db'.pools
  reservations : TxTable.Erased gone db.reservations db'.reservations
  hides : TxTable.HidesKeys gone db.reservations

section Statements

variable {gone : τ → Prop} {t : τ} {db db' : Db τ}

omit [DecidableEq τ] in
theorem FaultsErased.ofTables (gone : τ → Prop) (P : Table String PoolRow)
    (R : Table String ReservationRow) : FaultsErased gone (Db.ofTables P R) (Db.ofTables P R) :=
  ⟨.ofTable gone P, .ofTable gone R, .ofTable gone R⟩

/-! ## What the other calls do -/

theorem FaultsErased.rollback (h : FaultsErased gone db db') (ht : ¬ gone t) :
    FaultsErased gone (db.rollback t) (db'.rollback t) :=
  ⟨h.pools.rollback ht, h.reservations.rollback ht, h.hides.rollback t⟩

theorem FaultsErased.commit (h : FaultsErased gone db db') (ht : ¬ gone t) :
    FaultsErased gone (db.commit t) (db'.commit t) :=
  ⟨h.pools.commit ht, h.reservations.commit ht, h.hides.commit ht⟩

theorem respects_selectPoolForUpdate (ht : ¬ gone t) (k : String) :
    Respects (FaultsErased gone) _ (selectPoolForUpdate t k : Sync (Db τ) DbError _) := by
  intro db db' r db₁ h hr
  unfold selectPoolForUpdate at hr ⊢
  rw [h.pools.view ht]
  rcases hrow : (db.pools.view t).row k with _ | p <;> rw [hrow] at hr <;> simp only at hr ⊢
  · simp only [Option.some.injEq, Prod.mk.injEq] at hr
    obtain ⟨rfl, rfl⟩ := hr
    exact ⟨db', rfl, h⟩
  · split_ifs at hr with hfree
    simp only [Option.some.injEq, Prod.mk.injEq] at hr
    obtain ⟨rfl, rfl⟩ := hr
    exact ⟨_, if_pos (h.pools.free hfree), h.pools.lock ht k, h.reservations, h.hides⟩

theorem respects_writePool (ht : ¬ gone t) (k : String) (p : PoolRow) :
    Respects (FaultsErased gone) _ (writePool t k p : Sync (Db τ) DbError _) := by
  intro db db' r db₁ h hr
  unfold writePool at hr ⊢
  rcases hv : p.violated with _ | c <;> rw [hv] at hr <;> simp only [Option.some.injEq, Prod.mk.injEq] at hr ⊢ <;>
    obtain ⟨rfl, rfl⟩ := hr
  · exact ⟨_, ⟨rfl, rfl⟩, h.pools.write ht k p, h.reservations, h.hides⟩
  · exact ⟨_, ⟨rfl, rfl⟩, h.pools, h.reservations, h.hides⟩

theorem respects_insertReservation (ht : ¬ gone t) (id userId k : String) (q : ℤ)
    (expiresAt : Time) : Respects (FaultsErased gone) _
      (insertReservation t id userId k q expiresAt : Sync (Db τ) DbError _) := by
  intro db db' r db₁ h hr
  unfold insertReservation at hr ⊢
  split_ifs at hr with hq hfree
  · rw [dif_pos hq, if_pos (h.reservations.free hfree), h.reservations.view ht]
    rcases hrow : (db.reservations.view t).row id with _ | row <;> rw [hrow] at hr <;>
      simp only [Option.some.injEq, Prod.mk.injEq] at hr ⊢ <;> obtain ⟨rfl, rfl⟩ := hr
    · exact ⟨_, ⟨rfl, rfl⟩, h.pools, h.reservations.write ht id _, h.hides.write ht hfree _⟩
    · exact ⟨_, ⟨rfl, rfl⟩, h⟩
  · simp only [Option.some.injEq, Prod.mk.injEq] at hr
    obtain ⟨rfl, rfl⟩ := hr
    exact ⟨db', dif_neg hq, h⟩

theorem respects_updatePoolReserve (ht : ¬ gone t) (k : String) (q : ℤ) :
    Respects (FaultsErased gone) _ (updatePoolReserve t k q : Sync (Db τ) DbError _) := by
  intro db db' r db₁ h hr
  unfold updatePoolReserve at hr ⊢
  rw [h.pools.view ht]
  rcases hrow : (db.pools.view t).row k with _ | p <;> rw [hrow] at hr <;> simp only at hr ⊢
  · simp only [Option.some.injEq, Prod.mk.injEq] at hr
    obtain ⟨rfl, rfl⟩ := hr
    exact ⟨db', rfl, h⟩
  split_ifs at hr with hfree hq
  · rw [if_pos (h.pools.free hfree), if_pos hq, Sync.bind_apply]
    rw [Sync.bind_apply] at hr
    rcases hw : writePool t k _ db with _ | ⟨e | u, db₂⟩ <;> rw [hw] at hr <;>
      simp only [reduceCtorEq, Sync.pure_apply, Option.some.injEq, Prod.mk.injEq] at hr <;>
      obtain ⟨rfl, rfl⟩ := hr <;> obtain ⟨db₂', hw', h₂⟩ := respects_writePool ht k _ db db' _ _ h hw
    · exact ⟨db₂', by rw [hw'], h₂⟩
    · exact ⟨db₂', by rw [hw']; rfl, h₂⟩
  · simp only [Option.some.injEq, Prod.mk.injEq] at hr
    obtain ⟨rfl, rfl⟩ := hr
    exact ⟨db', by rw [if_pos (h.pools.free hfree), if_neg hq], h⟩

theorem respects_releaseCapacity (ht : ¬ gone t) (k : String) (q : ℤ) :
    Respects (FaultsErased gone) _ (releaseCapacity t k q : Sync (Db τ) DbError _) := by
  intro db db' r db₁ h hr
  unfold releaseCapacity at hr ⊢
  rw [h.pools.view ht]
  rcases hrow : (db.pools.view t).row k with _ | p <;> rw [hrow] at hr <;> simp only at hr ⊢
  · simp only [Option.some.injEq, Prod.mk.injEq] at hr
    obtain ⟨rfl, rfl⟩ := hr
    exact ⟨db', rfl, h⟩
  · split_ifs at hr with hfree
    rw [if_pos (h.pools.free hfree)]
    refine respects_writePool ht k _ _ _ _ _ ?_ hr
    exact ⟨h.pools, h.reservations, h.hides⟩

/-- Only rows that nobody sees are locked by the others, so the scan finds the same ones. -/
theorem FaultsErased.expirable (h : FaultsErased gone db db') (ht : ¬ gone t) (now : Time)
    (scope : Option String) : expirable db' t now scope = expirable db t now scope := by
  unfold LaunchPad.expirable
  rw [h.reservations.view ht]
  refine Finset.filter_congr fun id hid => and_congr_right fun _ => ?_
  obtain ⟨row, hrow⟩ := Option.isSome_iff_exists.1 ((Table.mem_keys _ id).1 hid)
  exact h.reservations.free_iff h.hides ht hrow

omit [DecidableEq τ] in
theorem FaultsErased.lockReservations (ht : ¬ gone t) : ∀ {ids : List String} {db db' : Db τ},
    FaultsErased gone db db' → (∀ id ∈ ids, db.reservations.Free t id) →
      FaultsErased gone { db with reservations := lockReservations t ids db.reservations }
        { db' with reservations := lockReservations t ids db'.reservations }
  | [], _, _, h, _ => h
  | id :: ids, db, db', h, hfree => by
    have hid := hfree id List.mem_cons_self
    have h₁ : FaultsErased gone { db with reservations := db.reservations.lock t id }
        { db' with reservations := db'.reservations.lock t id } :=
      ⟨h.pools, h.reservations.lock ht id, h.hides.lock ht hid⟩
    have hrest := FaultsErased.lockReservations ht h₁ fun id' (h' : id' ∈ ids) =>
      TxTable.free_lock (hfree id' (List.mem_cons_of_mem _ h')) id
    exact hrest

theorem respects_selectExpired (ht : ¬ gone t) (picked : List String) (now : Time)
    (scope : Option String) (n : ℤ) : Respects (FaultsErased gone) _
      (selectExpired t picked now scope n : Sync (Db τ) DbError _) := by
  intro db db' r db₁ h hr
  have hexpiry : expiryOf db' t = expiryOf db t := by
    unfold expiryOf
    rw [h.reservations.view ht]
  unfold selectExpired at hr ⊢
  rw [h.expirable ht, hexpiry]
  split_ifs at hr ⊢ with hneg hbatch <;> simp only [Option.some.injEq, Prod.mk.injEq] at hr ⊢ <;>
    obtain ⟨rfl, rfl⟩ := hr
  · exact ⟨db', ⟨rfl, rfl⟩, h⟩
  · refine ⟨_, ⟨rfl, rfl⟩, h.lockReservations ht fun id hid => ?_⟩
    exact (Finset.mem_filter.1 (hbatch.2.1 id hid)).2.2

theorem FaultsErased.expireRows (ht : ¬ gone t) : ∀ {ids : List String} {db db' : Db τ},
    FaultsErased gone db db' → (∀ id ∈ ids, db.reservations.Free t id) →
      FaultsErased gone { db with reservations := ids.foldl (expireRow t) db.reservations }
        { db' with reservations := ids.foldl (expireRow t) db'.reservations }
  | [], _, _, h, _ => h
  | id :: ids, db, db', h, hfree => by
    have hid := hfree id List.mem_cons_self
    have h₁ : FaultsErased gone { db with reservations := expireRow t db.reservations id }
        { db' with reservations := expireRow t db'.reservations id } := by
      unfold expireRow
      rw [h.reservations.view ht]
      rcases (db.reservations.view t).row id with _ | row
      · exact h
      · exact ⟨h.pools, h.reservations.write ht id _, h.hides.write ht hid _⟩
    have hrest : ∀ id' ∈ ids, (expireRow t db.reservations id).Free t id' := by
      intro id' h'
      have hf := hfree id' (List.mem_cons_of_mem _ h')
      unfold expireRow
      rcases (db.reservations.view t).row id with _ | row
      · exact hf
      · exact TxTable.free_write hf id _
    have hrows := FaultsErased.expireRows ht h₁ hrest
    exact hrows

theorem respects_markExpired (ht : ¬ gone t) (ids returned : List String) :
    Respects (FaultsErased gone) _ (markExpired t ids returned : Sync (Db τ) DbError _) := by
  intro db db' r db₁ h hr
  have hpending : pendingAmong db' t ids = pendingAmong db t ids := by
    unfold pendingAmong
    rw [h.reservations.view ht]
  have hreturning : returning db' t returned = returning db t returned := by
    unfold returning
    rw [h.reservations.view ht]
  unfold markExpired at hr ⊢
  rw [hpending, hreturning]
  split_ifs at hr with hc
  simp only [Option.some.injEq, Prod.mk.injEq] at hr
  obtain ⟨rfl, rfl⟩ := hr
  exact ⟨_, if_pos ⟨hc.1, fun id hid => h.reservations.free (hc.2 id hid)⟩,
    h.expireRows ht hc.2⟩

/-! ## What a faulty call does -/

theorem FaultsErased.rollback_gone (h : FaultsErased gone db db') (ht : gone t) :
    FaultsErased gone (db.rollback t) db' :=
  ⟨h.pools.rollback_gone ht, h.reservations.rollback_gone ht, h.hides.rollback t⟩

theorem unseen_selectPoolForUpdate (ht : gone t) (k : String) :
    Unseen (FaultsErased gone) _ (selectPoolForUpdate t k : Sync (Db τ) DbError _) := by
  intro db db' r db₁ h hr
  unfold selectPoolForUpdate at hr
  rcases hrow : (db.pools.view t).row k with _ | p <;> rw [hrow] at hr <;> simp only at hr
  · simp only [Option.some.injEq, Prod.mk.injEq] at hr
    exact hr.2 ▸ h
  · split_ifs at hr with hfree
    simp only [Option.some.injEq, Prod.mk.injEq] at hr
    exact hr.2 ▸ ⟨h.pools.lock_gone ht hfree, h.reservations, h.hides⟩

theorem unseen_deductOne (ht : gone t) (k : String) :
    Unseen (FaultsErased gone) _ (deductOne t k : Sync (Db τ) DbError _) := by
  intro db db' r db₁ h hr
  unfold deductOne at hr
  rcases hrow : (db.pools.view t).row k with _ | p <;> rw [hrow] at hr <;> simp only at hr
  · simp only [Option.some.injEq, Prod.mk.injEq] at hr
    exact hr.2 ▸ h
  · split_ifs at hr with hfree
    unfold writePool at hr
    split at hr <;> simp only [Option.some.injEq, Prod.mk.injEq] at hr
    · exact hr.2 ▸ ⟨h.pools, h.reservations, h.hides⟩
    · exact hr.2 ▸ ⟨h.pools.write_gone ht hfree _, h.reservations, h.hides⟩

/-- The row a faulty call inserts has a new key, so no scan would find it. -/
theorem unseen_insertReservation (ht : gone t) (id userId k : String) (q : ℤ) (expiresAt : Time) :
    Unseen (FaultsErased gone) _
      (insertReservation t id userId k q expiresAt : Sync (Db τ) DbError _) := by
  intro db db' r db₁ h hr
  unfold insertReservation at hr
  split_ifs at hr with hq hfree
  · rcases hrow : (db.reservations.view t).row id with _ | row <;> rw [hrow] at hr <;>
      simp only [Option.some.injEq, Prod.mk.injEq] at hr
    · rw [TxTable.view, Table.overlay_row, Option.or_eq_none_iff] at hrow
      exact hr.2 ▸ ⟨h.pools, h.reservations.write_gone ht hfree _,
        h.hides.write_gone ht hfree hrow.2 _⟩
    · exact hr.2 ▸ h
  · simp only [Option.some.injEq, Prod.mk.injEq] at hr
    exact hr.2 ▸ h

end Statements

/-! ## Whole calls -/

section Calls

variable {gone : τ → Prop} {t : τ}

open Async

theorem respects_reserveAtomic (ht : ¬ gone t) (env : ReserveEnv) (k : String) (q : ℤ)
    (userId : String) : (reserveAtomic env t k q userId).Each (Respects (FaultsErased gone)) := by
  have hrollback : ∀ db db' : Db τ, FaultsErased gone db db' →
      FaultsErased gone (db.rollback t) (db'.rollback t) := fun _ _ h => h.rollback ht
  have hreject : (do
      await ((tx t).rollbackTx env.onRollback)
      pure soldOut : Async (Db τ) DbError AtomicReservationResult).Each
        (Respects (FaultsErased gone)) :=
    each_bind (each_await (respects_rollbackTx hrollback)) fun _ => each_pure _
  unfold reserveAtomic
  refine each_tryCatch ?_ fun e =>
    each_bind (each_await (respects_rollbackTx hrollback)) fun _ => each_throw e
  refine each_bind (each_await (respects_beginTx hrollback)) fun _ => ?_
  refine each_bind (each_await (respects_statement (respects_selectPoolForUpdate ht k) hrollback))
    fun found => ?_
  rcases found with _ | availableQty
  · exact hreject
  dsimp only
  split_ifs
  · exact hreject
  refine each_bind (each_await (respects_statement
    (respects_insertReservation ht _ userId k q _) hrollback)) fun _ => ?_
  refine each_bind (each_await (respects_statement (respects_updatePoolReserve ht k q) hrollback))
    fun rowCount => ?_
  split_ifs
  · exact hreject
  · exact each_bind (each_await (respects_commitTx (fun _ _ h => h.commit ht) hrollback))
      fun _ => each_pure _

theorem respects_releaseAll (ht : ¬ gone t) (env : ExpiryEnv) : ∀ (m : List (String × ℤ)) (n : ℕ),
    (releaseAll env t n m).Each (Respects (FaultsErased gone))
  | [], _ => each_pure _
  | (k, q) :: m, n =>
    each_bind (each_await (respects_statement (respects_releaseCapacity ht k q)
      fun _ _ h => h.rollback ht)) fun _ => respects_releaseAll ht env m (n + 1)

theorem respects_expirePendingReservations (ht : ¬ gone t) (env : ExpiryEnv) (batchSize : ℤ)
    (scope : Option String) : (expirePendingReservations env t batchSize scope).Each
      (Respects (FaultsErased gone)) := by
  have hrollback : ∀ db db' : Db τ, FaultsErased gone db db' →
      FaultsErased gone (db.rollback t) (db'.rollback t) := fun _ _ h => h.rollback ht
  have hcommit : Respects (FaultsErased gone) _ ((tx t).commitTx env.onCommit) :=
    respects_commitTx (fun _ _ h => h.commit ht) hrollback
  unfold expirePendingReservations
  refine each_tryCatch ?_ fun e =>
    each_bind (each_await (respects_rollbackTx hrollback)) fun _ => each_throw e
  refine each_bind (each_await (respects_beginTx hrollback)) fun _ => ?_
  refine each_bind (each_await (respects_statement
    (respects_selectExpired ht _ _ _ batchSize) hrollback)) fun ids => ?_
  split_ifs
  · exact each_bind (each_await hcommit) fun _ => each_pure _
  · refine each_bind (each_await (respects_statement (respects_markExpired ht ids _) hrollback))
      fun rows => ?_
    refine each_bind (respects_releaseAll ht env _ 0) fun _ => ?_
    exact each_bind (each_await hcommit) fun _ => each_pure _

theorem respects_seatCall (ht : ¬ gone t) (call : SeatCall) :
    (call.program t).Each (Respects (FaultsErased gone)) := by
  rcases call with ⟨env, k, q, userId⟩ | ⟨env, batchSize, scope⟩
  · exact each_bind (respects_reserveAtomic ht env k q userId) fun _ => each_pure _
  · exact each_bind (respects_expirePendingReservations ht env batchSize scope) fun _ =>
      each_pure _

theorem unseen_faultyTransaction (ht : gone t) (env : FaultEnv) (k : String)
    {change : Sync (Db τ) DbError Unit} (hchange : Unseen (FaultsErased gone) _ change)
    (message : String) :
    (faultyTransaction env t k change message).Each (Unseen (FaultsErased gone)) := by
  have hrollback : ∀ db db' : Db τ, FaultsErased gone db db' →
      FaultsErased gone (db.rollback t) db' := fun _ _ h => h.rollback_gone ht
  unfold faultyTransaction
  refine each_tryCatch ?_ fun e => each_bind (each_mapResult (each_await
    (unseen_rollbackTx hrollback))) fun _ => each_throw e
  refine each_bind (each_mapResult (each_await (unseen_beginTx hrollback))) fun _ => ?_
  refine each_bind (each_mapResult (each_await (unseen_statement
    (unseen_selectPoolForUpdate ht k) hrollback))) fun _ => ?_
  exact each_bind (each_mapResult (each_await (unseen_statement hchange hrollback))) fun _ =>
    each_throw _

theorem respects_faultCall {call : FaultCall} (hcall : ¬ call.Injects) (ht : ¬ gone t) :
    (call.program t).Each (Respects (FaultsErased gone)) := by
  rcases call with call | _ | _
  · exact each_mapResult (respects_seatCall ht call)
  · exact absurd trivial hcall
  · exact absurd trivial hcall

theorem unseen_faultCall {call : FaultCall} (hcall : call.Injects) (ht : gone t) :
    (call.program t).Each (Unseen (FaultsErased gone)) := by
  rcases call with call | ⟨env, k⟩ | ⟨env, k, userId⟩
  · exact hcall.elim
  · exact each_bind (unseen_faultyTransaction ht env k (unseen_deductOne ht k) _) fun r => nomatch r
  · exact each_bind (unseen_faultyTransaction ht env k
      (unseen_insertReservation ht _ userId k 1 _) _) fun r => nomatch r

end Calls

/-- Any run of calls, some of which fail on purpose, interleaved statement by statement in any way,
each statement failing where it may. Without the steps of those, its schedule still runs, every
other call stands where it stood, with the answers it had, and the same rows are committed. -/
theorem faults_leave_no_trace (P : Table String PoolRow) (R : Table String ReservationRow)
    (calls : τ → FaultCall) {is : List τ} {c : Config τ (Db τ) FaultError SeatReply}
    (hrun : (faultCalls P R calls).runSchedule is = some c) :
    ∃ c', (faultCalls P R calls).runSchedule (is.filter fun t => ¬ (calls t).Injects) = some c'
      ∧ (∀ t, ¬ (calls t).Injects → c'.thread t = c.thread t)
      ∧ c'.world.pools.committed = c.world.pools.committed
      ∧ c'.world.reservations.committed = c.world.reservations.committed := by
  have hsame : Config.SameTo (FaultsErased fun t => (calls t).Injects)
      (fun t => ¬ (calls t).Injects) (faultCalls P R calls) (faultCalls P R calls) :=
    ⟨.ofTables _ P R, fun _ _ => rfl, fun t ht => respects_faultCall ht ht,
      fun t ht => unseen_faultCall (not_not.1 ht) (not_not.1 ht)⟩
  obtain ⟨c', hc', h⟩ := Config.runSchedule_filter is hsame hrun
  exact ⟨c', hc', h.thread, h.world.pools.committed, h.world.reservations.committed⟩

/-- An expiry of the held seat, and a reservation that crashes between its two writes. -/
def crashCalls : Bool → FaultCall
  | true => .seats (vipCalls false)
  | false => .reserveWithFaultBetweenInsertAndUpdate
      ⟨"r9", 13, .answered, .answered, .answered, .answered⟩ "vip" "bob"

/-- The crashed call has the pool row and a new reservation while the other one scans; that one
expires the held seat as if it had been alone. -/
theorem faults_leave_no_trace_crash :
    ∃ c c', (faultCalls vipPools vipReservations crashCalls).runSchedule
        [false, false, true, false, true, true, false, true, true] = some c
      ∧ (faultCalls vipPools vipReservations crashCalls).runSchedule
        [true, true, true, true, true] = some c'
      ∧ c'.thread true = c.thread true
      ∧ (c.thread false).result = some (.error (.injected "CRASH_BETWEEN_INSERT_AND_UPDATE"))
      ∧ c'.world.pools.committed.row "vip" = some ⟨2, 2, 0, 0⟩
      ∧ (c'.world.reservations.committed.row "r9") = none := by
  have hends : ((faultCalls vipPools vipReservations crashCalls).runSchedule
      [false, false, true, false, true, true, false, true, true]).any fun c =>
        (c.thread false).result = some (.error (.injected "CRASH_BETWEEN_INSERT_AND_UPDATE"))
          ∧ c.world.pools.committed.row "vip" = some ⟨2, 2, 0, 0⟩
          ∧ c.world.reservations.committed.row "r9" = none := by
    decide +kernel
  obtain ⟨c, hc, hends⟩ := (Option.any_eq_true _ _).1 hends
  obtain ⟨hthrown, hpool, hrow⟩ := of_decide_eq_true hends
  obtain ⟨c', hc', hthread, hpools, hreservations⟩ :=
    faults_leave_no_trace vipPools vipReservations crashCalls hc
  refine ⟨c, c', hc, hc', hthread true id, hthrown, ?_, ?_⟩
  · rw [hpools, hpool]
  · rw [hreservations, hrow]

end LaunchPad
