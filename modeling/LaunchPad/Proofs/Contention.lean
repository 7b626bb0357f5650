import LaunchPad.Proofs.Holding
import Mathlib.Data.Fintype.Card

/-!
# Requests for one pool at the same time

The lock of the pool row is taken before it is read and kept to the end, so the requests go through
it one after another, in some order. A request is granted where it finds enough, and the seats it
takes are gone for all that follow; with no other writers they never come back, so a request that
was turned away asked for more than there is at the end (`ContentionInv`).
-/

namespace LaunchPad

open Interleave Rows

/-- What the surroundings answer to every statement. -/
def ReserveEnv.Faultless (env : ReserveEnv) : Prop :=
  env.onBegin = .answered ∧ env.onSelect = .answered ∧ env.onInsert = .answered
    ∧ env.onUpdate = .answered ∧ env.onCommit = .answered ∧ env.onRollback = .answered
    ∧ env.onCatch = .answered

/-- Some requests for seats of one ticket type. -/
structure Requests (τ : Type) where
  ticketTypeId : String
  env : τ → ReserveEnv
  quantity : τ → ℤ
  userId : τ → String
  quantity_pos : ∀ t, 0 < quantity t

namespace Requests

variable {τ : Type} (req : Requests τ)

def call (t : τ) : SeatCall :=
  .reserveAtomic (req.env t) req.ticketTypeId (req.quantity t) (req.userId t)

def id (t : τ) : String := (req.env t).reservationId

/-- The reservation that is inserted for request `t`. -/
def reservation (t : τ) : ReservationRow :=
  ⟨req.userId t, req.ticketTypeId, req.quantity t, .active, (req.env t).now + 10 * 60 * 1000,
    req.quantity_pos t⟩

/-- `randomUUID` draws ids that are not in use. -/
structure FreshIds (R : Table String ReservationRow) : Prop where
  injective : Function.Injective req.id
  new : ∀ t, R.row (req.id t) = none

variable [Fintype τ]

/-- The requests whose reservation is in the table. -/
def granted (T : Table String ReservationRow) : Finset τ :=
  Finset.univ.filter fun t => (T.row (req.id t)).isSome

def grantedSeats (T : Table String ReservationRow) : ℤ := ∑ t ∈ req.granted T, req.quantity t

/-- What has become of the requests, where the pool row was `p` and the reservations `R`. -/
structure DecidedExactly (p : PoolRow) (R : Table String ReservationRow)
    (c : Config τ (Db τ) DbError SeatReply) : Prop where
  enough : req.grantedSeats c.world.reservations.committed ≤ p.availableQty
  pool : c.world.pools.committed.row req.ticketTypeId
    = some (p.shift (req.grantedSeats c.world.reservations.committed))
  reservation : ∀ t ∈ req.granted c.world.reservations.committed,
    c.world.reservations.committed.row (req.id t) = some (req.reservation t)
  others : ∀ id, (∀ t ∈ req.granted c.world.reservations.committed, req.id t ≠ id) →
    c.world.reservations.committed.row id = R.row id
  answered : ∀ t r, (c.thread t).result = some (.ok (.reserveAtomic r)) →
    (r = ⟨true, .reserved, some (req.id t)⟩ ∧ t ∈ req.granted c.world.reservations.committed)
      ∨ r = soldOut ∧ t ∉ req.granted c.world.reservations.committed
        ∧ p.availableQty - req.grantedSeats c.world.reservations.committed < req.quantity t

/-- Every request has been granted or turned away, and where each asked for one seat, as many are
granted as there are seats for. -/
structure AllDecided (p : PoolRow) (c : Config τ (Db τ) DbError SeatReply) : Prop where
  answered : ∀ t, (c.thread t).result
      = some (.ok (.reserveAtomic ⟨true, .reserved, some (req.id t)⟩))
    ∨ (c.thread t).result = some (.ok (.reserveAtomic soldOut))
  units : (∀ t, req.quantity t = 1) → (req.granted c.world.reservations.committed).card
    = min (Fintype.card τ) p.availableQty.toNat

end Requests

variable {τ : Type} [DecidableEq τ] [Fintype τ] {req : Requests τ}
  {P : Table String PoolRow} {R : Table String ReservationRow} {p₀ : PoolRow} {t : τ}
  {db db' : Db τ}

/-! ## The invariant -/

/-- What is known of request `t` where it stands, with `available` seats left. -/
def SeatPhase.Answers (req : Requests τ) (T : Table String ReservationRow) (available : ℤ) (t : τ) :
    SeatPhase → Prop
  | .catching _ => True
  | .ended (.error _) => True
  | .reject => t ∉ req.granted T ∧ available < req.quantity t
  | .ended (.ok r) => r = .reserveAtomic ⟨true, .reserved, some (req.id t)⟩ ∧ t ∈ req.granted T
      ∨ r = .reserveAtomic soldOut ∧ t ∉ req.granted T ∧ available < req.quantity t
  | _ => t ∉ req.granted T

/-- The pool has lost what the granted requests asked for, and nothing else has changed. -/
structure ContentionInv (req : Requests τ) (p₀ : PoolRow) (R : Table String ReservationRow)
    (φ : τ → SeatPhase) (db : Db τ) : Prop where
  enough : req.grantedSeats db.reservations.committed ≤ p₀.availableQty
  pool : db.pools.committed.row req.ticketTypeId
    = some (p₀.shift (req.grantedSeats db.reservations.committed))
  rows : ∀ t ∈ req.granted db.reservations.committed,
    db.reservations.committed.row (req.id t) = some (req.reservation t)
  others : ∀ id, (∀ t ∈ req.granted db.reservations.committed, req.id t ≠ id) →
    db.reservations.committed.row id = R.row id
  locks : ∀ t id, db.reservations.lockedBy id = some t → id = req.id t
  answers : ∀ t, (φ t).Answers req db.reservations.committed
    (p₀.availableQty - req.grantedSeats db.reservations.committed) t

omit [DecidableEq τ] in
theorem Requests.mem_granted {T : Table String ReservationRow} :
    t ∈ req.granted T ↔ (T.row (req.id t)).isSome := by
  simp [Requests.granted]

/-- A COMMIT with a new reservation grants one request more. -/
theorem Requests.granted_set (hfresh : Function.Injective req.id) {T : Table String ReservationRow}
    (r : ReservationRow) : req.granted (T.set (req.id t) r) = insert t (req.granted T) := by
  ext t'
  rw [Finset.mem_insert, mem_granted, mem_granted, Table.set_row]
  by_cases ht : t' = t
  · simp [ht]
  · simp [ht, hfresh.ne ht]

omit [DecidableEq τ] in
theorem SeatPhase.Answers.mono {T T' : Table String ReservationRow} {a a' : ℤ} {p : SeatPhase}
    (h : p.Answers req T a t) (hmem : t ∈ req.granted T' ↔ t ∈ req.granted T) (ha : a' ≤ a) :
    p.Answers req T' a' t := by
  unfold SeatPhase.Answers at h ⊢
  split at h
  · trivial
  · trivial
  · exact ⟨fun hg => h.1 (hmem.1 hg), by omega⟩
  · rcases h with ⟨hr, hg⟩ | ⟨hr, hg, hlt⟩
    · exact .inl ⟨hr, hmem.2 hg⟩
    · exact .inr ⟨hr, fun hg' => hg (hmem.1 hg'), by omega⟩
  · exact fun hg => h (hmem.1 hg)

namespace ContentionInv

variable {φ : τ → SeatPhase}

/-- A statement that commits nothing. -/
theorem kept {p : SeatPhase} (hinv : ContentionInv req p₀ R φ db)
    (hpools : db'.pools.committed = db.pools.committed)
    (hreservations : db'.reservations.committed = db.reservations.committed)
    (hlocks : ∀ t id, db'.reservations.lockedBy id = some t → id = req.id t)
    (hp : p.Answers req db.reservations.committed
      (p₀.availableQty - req.grantedSeats db.reservations.committed) t) :
    ContentionInv req p₀ R (Function.update φ t p) db' := by
  refine ⟨hreservations ▸ hinv.enough, ?_, hreservations ▸ hinv.rows, hreservations ▸ hinv.others,
    hlocks, fun t' => ?_⟩
  · rw [hpools, hreservations, hinv.pool]
  · rw [hreservations]
    rcases eq_or_ne t' t with rfl | hne
    · rwa [Function.update_self]
    · rw [Function.update_of_ne hne]
      exact hinv.answers t'

/-- A rollback. -/
theorem rollback {p : SeatPhase} {log : List PoolEvent} (hinv : ContentionInv req p₀ R φ db)
    (hp : p.Answers req db.reservations.committed
      (p₀.availableQty - req.grantedSeats db.reservations.committed) t) :
    ContentionInv req p₀ R (Function.update φ t p)
      (({ db with poolLog := log } : Db τ).rollback t) := by
  refine hinv.kept rfl rfl (fun t' id hl => ?_) hp
  rcases eq_or_ne t' t with rfl | hne
  · exact absurd hl (TxTable.rollback_lockedBy_ne _ t' id)
  · exact hinv.locks t' id (((TxTable.frame_rollback db.reservations t).lockedBy id t' hne).1 hl)

/-- The COMMIT of a request. -/
theorem commit {p : SeatPhase} {p₁ : PoolRow} (hinjective : Function.Injective req.id)
    (hinv : ContentionInv req p₀ R φ db)
    (hb : Booked t (req.env t) req.ticketTypeId (req.quantity t) (req.userId t) p₁ db)
    (hpending : db.pools.pending t
      = Table.empty.set req.ticketTypeId (p₁.shift (req.quantity t)))
    (hp : p = .ended (.ok (.reserveAtomic ⟨true, .reserved, some (req.id t)⟩))
      ∨ ∃ e, p = .catching e) :
    ContentionInv req p₀ R (Function.update φ t p) (db.commit t) := by
  obtain ⟨hq, hreservation⟩ := hb.pending
  have hcommitted : (db.commit t).reservations.committed
      = db.reservations.committed.set (req.id t) (req.reservation t) := by
    change (db.reservations.view t) = _
    rw [TxTable.view, hreservation, Table.overlay_set_empty]
    rfl
  have hnew : t ∉ req.granted db.reservations.committed := by
    rw [Requests.mem_granted, show db.reservations.committed.row (req.id t) = none from hb.fresh]
    simp
  have hgranted : req.granted (db.commit t).reservations.committed
      = insert t (req.granted db.reservations.committed) := by
    rw [hcommitted, Requests.granted_set hinjective]
  have hseats : req.grantedSeats (db.commit t).reservations.committed
      = req.grantedSeats db.reservations.committed + req.quantity t := by
    rw [Requests.grantedSeats, hgranted, Finset.sum_insert hnew, add_comm]
    rfl
  obtain rfl : p₀.shift (req.grantedSeats db.reservations.committed) = p₁ := by
    have hrow := hb.row
    rw [hinv.pool] at hrow
    exact Option.some.inj hrow
  have hpos := req.quantity_pos t
  have henough := hb.enough
  simp only [PoolRow.shift] at henough
  refine ⟨?_, ?_, fun t' ht' => ?_, fun id hid => ?_, fun t' id hl => ?_, fun t' => ?_⟩
  · rw [hseats]
    omega
  · change (db.pools.view t).row _ = _
    rw [TxTable.view, hpending, Table.overlay_set_empty, Table.set_row_self, hseats]
    simp only [PoolRow.shift, Option.some.injEq, PoolRow.mk.injEq, true_and, and_true]
    omega
  · rw [hgranted, Finset.mem_insert] at ht'
    rw [hcommitted, Table.set_row]
    rcases ht' with rfl | ht'
    · rw [if_pos rfl]
    · rw [if_neg (hinjective.ne (ne_of_mem_of_not_mem ht' hnew)), hinv.rows t' ht']
  · rw [hgranted] at hid
    rw [hcommitted, Table.set_row, if_neg (hid t (Finset.mem_insert_self _ _)).symm]
    exact hinv.others id fun t' ht' => hid t' (Finset.mem_insert_of_mem ht')
  · rcases eq_or_ne t' t with rfl | hne
    · exact absurd hl (TxTable.rollback_lockedBy_ne _ t' id)
    · exact hinv.locks t' id (((TxTable.frame_rollback db.reservations t).lockedBy id t' hne).1 hl)
  · rw [hseats]
    rcases eq_or_ne t' t with rfl | hne
    · rw [Function.update_self]
      rcases hp with rfl | ⟨e, rfl⟩
      · exact .inl ⟨rfl, hgranted ▸ Finset.mem_insert_self _ _⟩
      · trivial
    · rw [Function.update_of_ne hne]
      refine (hinv.answers t').mono ?_ (by omega)
      rw [hgranted, Finset.mem_insert, or_iff_right hne]

theorem move {p : SeatPhase} (hinjective : Function.Injective req.id)
    (hinv : ContentionInv req p₀ R φ db) (hholding : Holding R t (req.call t) (φ t) db)
    (hm : SeatMove t db (.call (req.call t)) (φ t) db' p) :
    ContentionInv req p₀ R (Function.update φ t p) db' := by
  have hans := hinv.answers t
  have hwritten := hholding.written
  unfold Requests.call at hm hwritten
  generalize hφ : φ t = φt at hm hans hwritten
  cases hm with
  | begin => exact hinv.kept rfl rfl hinv.locks hans
  | missing hrow =>
    have hU : Unwritten t db := hwritten
    rw [hU.view_pools, hinv.pool] at hrow
    simp at hrow
  | @locked _ _ _ _ p₁ hrow hfree =>
    have hU : Unwritten t db := hwritten
    rw [hU.view_pools, hinv.pool] at hrow
    obtain rfl := Option.some.inj hrow
    split_ifs with hlt
    · exact hinv.kept rfl rfl hinv.locks ⟨hans, hlt⟩
    · exact hinv.kept rfl rfl hinv.locks hans
  | inserted hq hfree hrow =>
    refine hinv.kept rfl rfl (fun t' id hl => ?_) hans
    rcases eq_or_ne t' t with rfl | hne
    · rcases TxTable.eq_or_lockedBy_of_lock hl with rfl | hl
      · rfl
      · exact hinv.locks t' id hl
    · exact hinv.locks t' id (((TxTable.frame_write hfree _).lockedBy id t' hne).1 hl)
  | updated => exact hinv.kept rfl rfl hinv.locks hans
  | missed hrow =>
    obtain ⟨hpending, p₁, hb⟩ := hwritten
    have hlt := hrow p₁ (by rw [TxTable.view, hpending, Table.overlay_empty, hb.row])
    have hle := hb.enough
    omega
  | committedReserve hp =>
    obtain ⟨p₁, hb, hpending⟩ := hwritten
    exact hinv.commit hinjective hb hpending (hp.imp_right fun h => ⟨_, h.2⟩)
  | rejected hp =>
    rcases hp with rfl | ⟨-, rfl⟩
    · exact hinv.rollback (.inr ⟨rfl, hans⟩)
    · exact hinv.rollback trivial
  | aborted => exact hinv.rollback trivial
  | caught => exact hinv.rollback trivial

end ContentionInv

theorem contentionInv_of_trace (hfresh : req.FreshIds R) (hp : P.row req.ticketTypeId = some p₀)
    (ha : 0 ≤ p₀.availableQty) {h : List (Taken τ (Db τ))}
    (ht : (seats fun t => .call (req.call t)).Trace (Db.ofTables P R) h db) :
    ContentionInv req p₀ R ((seats fun t => .call (req.call t)).phases h) db := by
  induction ht with
  | nil =>
    have hgranted : req.granted R = ∅ := by
      ext t
      simp [Requests.mem_granted, hfresh.new t]
    have hseats : req.grantedSeats R = 0 := by
      rw [Requests.grantedSeats, hgranted, Finset.sum_empty]
    refine ⟨?_, ?_, fun t ht => ?_, fun id _ => rfl, fun t id hl => ?_, fun t => ?_⟩
    · change req.grantedSeats R ≤ _
      rwa [hseats]
    · change P.row _ = some (p₀.shift (req.grantedSeats R))
      rw [hseats, hp]
      simp [PoolRow.shift]
    · change t ∈ req.granted R at ht
      simp [hgranted] at ht
    · simp [Db.ofTables, TxTable.ofTable] at hl
    · change t ∉ req.granted R
      simp [hgranted]
  | @snoc h db db' t p ht hm ih =>
    rw [Machine.phases_snoc, Machine.advance_of_move hm]
    exact ih.move hfresh.injective ((holding_of_trace ht).2 t) (.of_move hm)

/-! ## The requests end -/

/-- How many statements a request has left at most. -/
def SeatPhase.statementsLeft : SeatPhase → ℕ
  | .begin => 6
  | .select => 5
  | .insert => 4
  | .update => 3
  | .commitReserve => 2
  | .reject => 2
  | .catching _ => 1
  | _ => 0

omit [Fintype τ] in
theorem statementsLeft_lt {p p' : SeatPhase} (hm : (req.call t).move t p db = some (db', p')) :
    p'.statementsLeft < p.statementsLeft := by
  unfold Requests.call at hm
  cases p <;> simp only [SeatCall.move, reduceCtorEq] at hm <;>
    rcases Machine.segment_eq_some.1 hm with ⟨b, -, rfl⟩ | ⟨e, -, rfl⟩
  case select.inl =>
    rcases b with _ | a
    · simp [SeatPhase.statementsLeft]
    · simp only []
      split_ifs <;> simp [SeatPhase.statementsLeft]
  case update.inl => split_ifs <;> simp [SeatPhase.statementsLeft]
  all_goals simp [SeatPhase.statementsLeft]

omit [Fintype τ] in
/-- Each statement of a request is answered by some database: by one without locks. -/
theorem each_request (t : τ) :
    ((req.call t).program t).Each fun _ act => ∃ db : Db τ, (act db).isSome := by
  have hstatement : ∀ {β : Type} {fate : Fate} {s : Sync (Db τ) DbError β},
      (s (Db.ofTables .empty .empty)).isSome → ∃ db, ((tx t).statement fate s db).isSome :=
    fun hs => ⟨_, TxEnds.isSome_statement hs⟩
  have hrollback : ∀ {fate : Fate}, ∃ db : Db τ, ((tx t).rollbackTx fate db).isSome :=
    ⟨Db.ofTables .empty .empty, TxEnds.isSome_rollbackTx⟩
  have hreject : (do
      Async.await ((tx t).rollbackTx (req.env t).onRollback)
      pure soldOut : Async (Db τ) DbError AtomicReservationResult).Each fun _ act =>
        ∃ db : Db τ, (act db).isSome :=
    Async.each_bind (Async.each_await hrollback) fun _ => Async.each_pure _
  refine Async.each_bind (Async.each_tryCatch ?_ fun err =>
    Async.each_bind (Async.each_await hrollback) fun _ => Async.each_throw _) fun _ =>
    Async.each_pure _
  refine Async.each_bind (Async.each_await (hstatement rfl)) fun _ => ?_
  refine Async.each_bind (Async.each_await (hstatement rfl)) fun found => ?_
  rcases found with _ | a
  · exact hreject
  simp only []
  split_ifs
  · exact hreject
  refine Async.each_bind (Async.each_await (hstatement ?_)) fun _ => ?_
  · have hfree : (Db.ofTables .empty .empty : Db τ).reservations.Free t (req.env t).reservationId :=
      fun t' ht' => by simp [Db.ofTables, TxTable.ofTable] at ht'
    unfold insertReservation
    rw [dif_pos (req.quantity_pos t), if_pos hfree]
    rfl
  refine Async.each_bind (Async.each_await (hstatement rfl)) fun rowCount => ?_
  split_ifs
  · exact hreject
  · exact Async.each_bind (Async.each_await ⟨Db.ofTables .empty .empty, TxEnds.isSome_commitTx⟩)
      fun _ => Async.each_pure _

omit [Fintype τ] in
theorem move_of_left_zero {p : SeatPhase} (h : p.statementsLeft = 0) (db : Db τ) :
    (req.call t).move t p db = none := by
  rcases hm : (req.call t).move t p db with _ | ⟨db', p'⟩
  · rfl
  · have hlt := statementsLeft_lt hm
    omega

/-- No CHECK fires where available seats are reserved. -/
theorem PoolRow.violated_shift {p : PoolRow} {d : ℤ} (hp : p.violated = none) (hd : 0 ≤ d)
    (hle : d ≤ p.availableQty) : (p.shift d).violated = none := by
  unfold violated at hp
  split_ifs at hp
  refine violated_eq_none ?_ ?_ ?_ ?_ ?_ <;> simp only [shift] <;> omega

theorem PoolRow.available_nonneg {p : PoolRow} (hp : p.violated = none) : 0 ≤ p.availableQty := by
  unfold violated at hp
  split_ifs at hp
  omega

omit [DecidableEq τ] in
theorem Requests.grantedSeats_nonneg (T : Table String ReservationRow) :
    0 ≤ req.grantedSeats T :=
  Finset.sum_nonneg fun t _ => (req.quantity_pos t).le

omit [Fintype τ] in
theorem isSome_writePool (t : τ) (k : String) (p : PoolRow) (db : Db τ) :
    (writePool t k p db).isSome := by
  unfold writePool
  split <;> rfl

section Progress

variable {φ : τ → SeatPhase}

/-- Only the SELECT waits, for the lock of the pool. -/
theorem select_of_waits (hinjective : Function.Injective req.id)
    (hinv : ContentionInv req p₀ R φ db) (hholding : Holding R t (req.call t) (φ t) db)
    (hm : (req.call t).move t (φ t) db = none) :
    (φ t = .select ∧ ∃ t', t' ≠ t ∧ db.pools.lockedBy req.ticketTypeId = some t')
      ∨ (φ t).statementsLeft = 0 := by
  have hwritten := hholding.written
  unfold Requests.call at hm hwritten
  generalize φ t = p at hm hwritten
  have hnone : ∀ {β : Type} {x : Sync (Db τ) DbError β} {ok : β → SeatPhase}
      {err : DbError → SeatPhase}, Machine.segment x ok err db = none → x db = none :=
    fun h => Option.map_eq_none_iff.1 h
  have hsome : ∀ {β : Type} {x : Sync (Db τ) DbError β}, (x db).isSome → x db ≠ none :=
    fun h h' => by simp [h'] at h
  cases p <;> simp only [SeatCall.move] at hm
  case begin => exact absurd (hnone hm) (hsome (TxEnds.isSome_statement rfl))
  case select =>
    refine .inl ⟨rfl, ?_⟩
    by_contra hfree
    push Not at hfree
    refine hsome (TxEnds.isSome_statement ?_) (hnone hm)
    unfold selectPoolForUpdate
    split
    · rfl
    · have hpool : db.pools.Free t req.ticketTypeId := fun t' ht' =>
        not_not.1 fun hne => hfree t' hne ht'
      rw [if_pos hpool]
      rfl
  case insert =>
    refine absurd (hnone hm) (hsome (TxEnds.isSome_statement ?_))
    have hfree : db.reservations.Free t (req.env t).reservationId := fun t' ht' =>
      (hinjective (hinv.locks t' _ ht')).symm
    unfold insertReservation
    rw [dif_pos (req.quantity_pos t), if_pos hfree]
    split <;> rfl
  case update =>
    obtain ⟨-, p, hb⟩ := hwritten
    refine absurd (hnone hm) (hsome (TxEnds.isSome_statement ?_))
    unfold updatePoolReserve
    split
    · rfl
    · rw [if_pos (free_of_lockedBy hb.lock)]
      split_ifs
      · obtain ⟨⟨r, db₁⟩, hw⟩ := Option.isSome_iff_exists.1 (isSome_writePool t _ _ db)
        rw [Sync.bind_apply, hw]
        cases r <;> rfl
      · rfl
  case commitReserve => exact absurd (hnone hm) (hsome TxEnds.isSome_commitTx)
  case reject => exact absurd (hnone hm) (hsome TxEnds.isSome_rollbackTx)
  case catching => exact absurd (hnone hm) (hsome TxEnds.isSome_rollbackTx)
  all_goals exact .inr rfl

/-- Where no request can go on, none has a statement left: the one that has the pool's lock could
make its next. -/
theorem left_zero_of_waits (hinjective : Function.Injective req.id)
    (hinv : ContentionInv req p₀ R φ db) (hholding : ∀ t, Holding R t (req.call t) (φ t) db)
    (hm : ∀ t, (req.call t).move t (φ t) db = none) (t : τ) : (φ t).statementsLeft = 0 := by
  rcases select_of_waits hinjective hinv (hholding t) (hm t) with ⟨-, t', -, hlock⟩ | h
  · have hheld := (hholding t').pools _ hlock
    rcases select_of_waits hinjective hinv (hholding t') (hm t') with ⟨hp, -⟩ | hp
    · simp [hp, Requests.call, SeatPhase.poolsHeld] at hheld
    · unfold Requests.call at hheld
      cases hφ : φ t' <;> simp [hφ, SeatPhase.poolsHeld, SeatPhase.statementsLeft] at hheld hp
  · exact h

/-- The request has met no error. -/
def SeatPhase.Undisturbed (p : SeatPhase) : Prop :=
  (∀ e, p ≠ .catching e) ∧ ∀ e, p ≠ .ended (.error e)

omit [Fintype τ] in
theorem not_catching_of_statement {β : Type} {fate : Fate} {s : Sync (Db τ) DbError β}
    {ok : β → SeatPhase} {e : DbError} (hfate : fate = .answered)
    (hs : ∀ e db₁, s db ≠ some (.error e, db₁)) (hok : ∀ b, ok b ≠ .catching e)
    (hm : Machine.segment ((tx t).statement fate s) ok .catching db = some (db', .catching e)) :
    False := by
  rcases Machine.segment_statement hm with ⟨b, -, hp⟩ | ⟨e', db₁, -, -, ⟨hf, -⟩ | herr⟩
  · exact hok b hp.symm
  · exact hf hfate
  · exact hs e' db₁ herr

/-- Where all is answered, no statement of a request fails: its id is new, and it has seen under the
lock that there is enough. -/
theorem not_aborted (hvalid : p₀.violated = none) (hfaultless : (req.env t).Faultless)
    (hinv : ContentionInv req p₀ R φ db) (hholding : Holding R t (req.call t) (φ t) db)
    (e : DbError) (hm : (req.call t).move t (φ t) db = some (db', .catching e)) : False := by
  obtain ⟨hbegin, hselect, hinsert, hupdate, hcommit, hrollback, -⟩ := hfaultless
  have hwritten := hholding.written
  have hans := hinv.answers t
  unfold Requests.call at hm hwritten
  generalize φ t = p at hm hwritten hans
  cases p <;> simp only [SeatCall.move, reduceCtorEq] at hm
  case begin => exact not_catching_of_statement hbegin (by simp [Sync.pure_apply]) (by simp) hm
  case select =>
    refine not_catching_of_statement hselect (fun e db₁ hs => ?_) (fun found => ?_) hm
    · rcases selectPoolForUpdate_eq_some hs with ⟨hr, -⟩ | ⟨p, hr, -⟩ <;> simp at hr
    · rcases found with _ | a
      · simp
      · simp only []
        split_ifs <;> simp
  case insert =>
    refine not_catching_of_statement hinsert (fun e db₁ hs => ?_) (by simp) hm
    rcases insertReservation_eq_some hs with ⟨-, hr, -⟩ | ⟨-, ⟨-, hq⟩ | ⟨-, hrow⟩⟩
    · simp at hr
    · exact hq (req.quantity_pos t)
    · have hnew : t ∉ req.granted db.reservations.committed := hans
      rw [Requests.mem_granted, Option.isSome_iff_ne_none, not_not] at hnew
      rw [hwritten.1.view_reservations] at hrow
      exact hrow hnew
  case update =>
    refine not_catching_of_statement hupdate (fun e db₁ hs => ?_) (fun b => ?_) hm
    · obtain ⟨hpending, p₁, hb⟩ := hwritten
      rcases updatePoolReserve_eq_some hs with
        ⟨hr, -⟩ | ⟨p₂, hrow, -, hle, ⟨hr, -⟩ | ⟨hcheck, -⟩⟩
      · simp at hr
      · simp at hr
      · rw [TxTable.view, hpending, Table.overlay_empty, hinv.pool] at hrow
        obtain rfl := Option.some.inj hrow
        have hrow₁ := PoolRow.violated_shift hvalid (req.grantedSeats_nonneg _) hinv.enough
        exact hcheck (PoolRow.violated_shift hrow₁ (req.quantity_pos t).le hle)
    · split_ifs <;> simp
  case commitReserve =>
    rcases Machine.segment_commitTx hm with ⟨-, ⟨-, hp⟩ | ⟨hf, -⟩⟩ | ⟨hf, -⟩
    · simp at hp
    · simp [hcommit] at hf
    · simp [hcommit] at hf
  case reject =>
    obtain ⟨-, ⟨-, hp⟩ | ⟨hf, -⟩⟩ := Machine.segment_rollbackTx hm
    · simp at hp
    · exact hf hrollback
  case catching =>
    obtain ⟨-, ⟨-, hp⟩ | ⟨-, hp⟩⟩ := Machine.segment_rollbackTx hm <;> simp at hp

theorem SeatPhase.Undisturbed.move {p : SeatPhase} (hundisturbed : (φ t).Undisturbed)
    (hvalid : p₀.violated = none) (hfaultless : (req.env t).Faultless)
    (hinv : ContentionInv req p₀ R φ db) (hholding : Holding R t (req.call t) (φ t) db)
    (hm : (req.call t).move t (φ t) db = some (db', p)) : p.Undisturbed := by
  refine ⟨?_, ?_⟩
  · rintro e rfl
    exact not_aborted hvalid hfaultless hinv hholding e hm
  · rintro e rfl
    unfold Requests.call at hm
    generalize φ t = p at hm hundisturbed
    cases p <;> simp only [SeatCall.move, reduceCtorEq] at hm
    case catching => exact hundisturbed.1 _ rfl
    all_goals
      rcases Machine.segment_eq_some.1 hm with ⟨b, -, hp⟩ | ⟨e', -, hp⟩
    case select.inl =>
      rcases b with _ | a
      · simp at hp
      · simp only [] at hp
        split_ifs at hp
    case update.inl => split_ifs at hp
    all_goals simp at hp

end Progress

/-- Where all is answered, no request meets an error. -/
theorem undisturbed_of_trace (hfresh : req.FreshIds R) (hp : P.row req.ticketTypeId = some p₀)
    (hvalid : p₀.violated = none) (hfaultless : ∀ t, (req.env t).Faultless)
    {h : List (Taken τ (Db τ))}
    (ht : (seats fun t => .call (req.call t)).Trace (Db.ofTables P R) h db) (t : τ) :
    ((seats fun t => .call (req.call t)).phases h t).Undisturbed := by
  induction ht with
  | nil => exact ⟨by simp [seats], by simp [seats]⟩
  | @snoc h db db' i p ht hm ih =>
    rw [Machine.phases_snoc, Machine.advance_of_move hm]
    rcases eq_or_ne t i with rfl | hne
    · rw [Function.update_self]
      exact ih.move hvalid (hfaultless t) (contentionInv_of_trace hfresh hp (PoolRow.available_nonneg hvalid) ht)
        ((holding_of_trace ht).2 t) hm
    · rwa [Function.update_of_ne hne]

/-! ## The outcome -/

section Outcome

variable {h : List (Taken τ (Db τ))} {c : Config τ (Db τ) DbError SeatReply}

omit [DecidableEq τ] in
theorem ContentionInv.decidedExactly {φ : τ → SeatPhase} (hinv : ContentionInv req p₀ R φ c.world)
    (hended : ∀ t r, (c.thread t).result = some r → φ t = .ended r) :
    req.DecidedExactly p₀ R c := by
  refine ⟨hinv.enough, hinv.pool, hinv.rows, hinv.others, fun t r hr => ?_⟩
  have hans := hinv.answers t
  rw [hended t _ hr] at hans
  rcases hans with ⟨he, hg⟩ | ⟨he, hg, hlt⟩
  · exact .inl ⟨SeatReply.reserveAtomic.inj he, hg⟩
  · exact .inr ⟨SeatReply.reserveAtomic.inj he, hg, hlt⟩

/-- Of requests for one seat each, as many are granted as there are seats for. -/
theorem card_granted (hdecided : req.DecidedExactly p₀ R c)
    (hanswered : ∀ t, ∃ r, (c.thread t).result = some (.ok (.reserveAtomic r)))
    (hunit : ∀ t, req.quantity t = 1) : (req.granted c.world.reservations.committed).card
      = min (Fintype.card τ) p₀.availableQty.toNat := by
  have hseats : req.grantedSeats c.world.reservations.committed
      = (req.granted c.world.reservations.committed).card := by
    rw [Requests.grantedSeats, Finset.sum_congr rfl fun t _ => hunit t]
    simp
  have henough := hdecided.enough
  have hle := Finset.card_le_univ (req.granted c.world.reservations.committed)
  rw [hseats] at henough
  by_cases hall : ∀ t, t ∈ req.granted c.world.reservations.committed
  · have hcard := congrArg Finset.card (Finset.eq_univ_iff_forall.2 hall)
    rw [Finset.card_univ] at hcard
    omega
  · -- somebody was turned away, and asked for one seat: there is none left
    push Not at hall
    obtain ⟨t, ht⟩ := hall
    obtain ⟨r, hr⟩ := hanswered t
    rcases hdecided.answered t r hr with ⟨-, hg⟩ | ⟨-, -, hlt⟩
    · exact absurd hg ht
    · rw [hseats, hunit t] at hlt
      omega

/-- Where no request can go on, all have ended. -/
theorem ended_of_stuck (hinjective : Function.Injective req.id)
    (hinv : ContentionInv req p₀ R ((seats fun t => .call (req.call t)).phases h) c.world)
    (hrun : (seatCalls (Db.ofTables P R) req.call).Run h c) (hstuck : ∀ t, c.step t = none) (t : τ) :
    ∃ r, (c.thread t).result = some r := by
  obtain ⟨ht, hruns⟩ := trace_of_seat_run hrun
  have heach := Config.each_reach (c := seatCalls (Db.ofTables P R) req.call)
    (A := fun _ _ act => ∃ db, (act db).isSome) (fun t => each_request t) hrun.reach
  have hwaits : ∀ t, (req.call t).move t ((seats fun t => .call (req.call t)).phases h t) c.world
      = none := fun t => by
    rcases Machine.ended_or_waits (hruns t) (hstuck t) with ⟨r, -, hp⟩ | hm
    · rw [hp]
      exact move_of_left_zero rfl _
    · exact hm
  have hleft := left_zero_of_waits hinjective hinv (holding_of_trace ht).2 hwaits t
  obtain ⟨r, hr, -⟩ := (hruns t).ended (heach t) (move_of_left_zero hleft)
  exact ⟨r, hr⟩

/-- Contention for one pool is decided exactly: in every run of the requests, between any two
statements; each makes six statements at most, and when none can go on all have ended. -/
theorem contention_decided (hp : P.row req.ticketTypeId = some p₀) (hvalid : p₀.violated = none)
    (hfresh : req.FreshIds R) (hrun : (seatCalls (Db.ofTables P R) req.call).Run h c) :
    req.DecidedExactly p₀ R c
      ∧ (∀ t, (stepsOf t h).length ≤ 6)
      ∧ ((∀ t, c.step t = none) →
        (∀ t, ∃ r, (c.thread t).result = some r)
          ∧ ((∀ t, (req.env t).Faultless) → req.AllDecided p₀ c)) := by
  obtain ⟨ht, hruns⟩ := trace_of_seat_run hrun
  have hinv := contentionInv_of_trace hfresh hp (PoolRow.available_nonneg hvalid) ht
  have hholding := (holding_of_trace ht).2
  have hended := fun t r (hr : (c.thread t).result = some r) => (hruns t).of_result hr
  have hdecided := hinv.decidedExactly hended
  refine ⟨hdecided, fun t => ?_, fun hstuck => ?_⟩
  · have hsteps := ht.steps_add_rank_le (fun _ => SeatPhase.statementsLeft)
      (fun t s w w' s' hm => statementsLeft_lt hm) t
    exact le_of_add_le_left hsteps
  · have hall := ended_of_stuck hfresh.injective hinv hrun hstuck
    refine ⟨hall, fun hfaultless => ?_⟩
    have hanswered : ∀ t, ∃ r, (c.thread t).result = some (.ok r) := fun t => by
      obtain ⟨r, hr⟩ := hall t
      rcases r with e | r
      · exact absurd (hended t _ hr)
          ((undisturbed_of_trace hfresh hp hvalid hfaultless ht t).2 e)
      · exact ⟨r, hr⟩
    have hreply : ∀ t r, (c.thread t).result = some (.ok r) →
        r = .reserveAtomic ⟨true, .reserved, some (req.id t)⟩ ∨ r = .reserveAtomic soldOut := by
      intro t r hr
      have hans := hinv.answers t
      rw [hended t _ hr] at hans
      exact hans.imp And.left And.left
    refine ⟨fun t => ?_, card_granted hdecided fun t => ?_⟩
    · obtain ⟨r, hr⟩ := hanswered t
      rw [hr]
      exact (hreply t r hr).imp (fun h => by rw [h]) fun h => by rw [h]
    · obtain ⟨r, hr⟩ := hanswered t
      rcases hreply t r hr with rfl | rfl <;> exact ⟨_, hr⟩

end Outcome

/-- Three friends and two seats. -/
def friends : Requests (Fin 3) where
  ticketTypeId := "vip"
  env t := ⟨["r0", "r1", "r2"].getD t "", 0, .answered, .answered, .answered, .answered, .answered,
    .answered, .answered⟩
  quantity _ := 1
  userId t := ["ann", "bob", "cid"].getD t ""
  quantity_pos _ := by decide

def twoSeats : Table String PoolRow := Table.empty.set "vip" ⟨2, 2, 0, 0⟩

theorem friends_isSome : ((seatCalls (Db.ofTables twoSeats .empty) friends.call).history
    [0, 1, 2, 1, 1, 1, 1, 0, 0, 0, 0, 2, 2]).isSome := by decide

/-- The first two to reach the pool get the seats. -/
theorem contention_friends :
    ∃ h c, (seatCalls (Db.ofTables twoSeats .empty) friends.call).Run h c
      ∧ friends.DecidedExactly ⟨2, 2, 0, 0⟩ .empty c ∧ friends.AllDecided ⟨2, 2, 0, 0⟩ c
      ∧ (friends.granted c.world.reservations.committed).card = 2 := by
  have hrun := Config.run_of_history _ (Option.eq_some_of_isSome friends_isSome)
  have hfresh : friends.FreshIds Table.empty := ⟨by decide, fun _ => rfl⟩
  have hpool : twoSeats.row "vip" = some ⟨2, 2, 0, 0⟩ := rfl
  obtain ⟨hdecided, -, hend⟩ := contention_decided hpool (by decide) hfresh hrun
  obtain ⟨-, hall⟩ := hend (by decide)
  have hanswered := hall fun _ => ⟨rfl, rfl, rfl, rfl, rfl, rfl, rfl⟩
  exact ⟨_, _, hrun, hdecided, hanswered, hanswered.units fun _ => rfl⟩

end LaunchPad
