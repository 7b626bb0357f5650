import LaunchPad.Proofs.Outbox
import LaunchPad.Sweep

/-!
# The sweeps run the machine

`publishPending` takes the statements of its machine one by one, so every run of calls on the
outbox is a trace of the machine (`trace_of_outbox_run`). What a statement does to the outbox is
said once, by `SweepMove`.
-/

namespace LaunchPad

open Interleave Rows

variable {τ δ : Type} {calls : τ → OutboxCall δ} {t : τ} {env : SweepEnv}
  {batchSize : ℤ} {aggregateId : Option String}

/-- Where a turn of the loop leaves the sweep. -/
def AfterTurn (n : ℕ) (rest : List (OutboxRecord δ)) (r : Except OutboxError Bool)
    (s : SweepPhase δ) : Prop :=
  match r with
  | .ok _ => s = .loop (n + 1) rest
  | .error _ => s = .ended

def AfterLoop (r : Except OutboxError (ℕ × ℕ)) (s : SweepPhase δ) : Prop :=
  match r with
  | .ok _ => s = .counting
  | .error _ => s = .ended

/-- The `catch` is entered where the event may not have been marked. -/
theorem runs_publishRecord (hc : calls t = .publishPending env batchSize aggregateId) {n : ℕ}
    {record : OutboxRecord δ} {rest : List (OutboxRecord δ)} :
    (sweeps calls).Runs t (AfterTurn n rest) (publishRecord env t n record)
      (.publishing n record rest) := by
  unfold publishRecord
  refine Machine.Runs.tryCatch (K := fun r s => match r with
    | .ok _ => s = .loop (n + 1) rest
    | .error err => s = .recording n err record rest) ?_ (fun _ _ h => h) ?_
  · refine Machine.Runs.await_bind (o := fun _ => .marking n record rest)
      (e := fun err => .recording n err record rest) (by simp [sweeps, hc, OutboxCall.move])
      (fun _ => ?_) fun _ => rfl
    refine Machine.Runs.await_bind (o := fun _ => .loop (n + 1) rest)
      (e := fun err => .recording n err record rest) (by simp [sweeps, hc, OutboxCall.move])
      (fun _ => Machine.Runs.pure rfl) fun _ => rfl
  · rintro err s rfl
    exact Machine.Runs.await_bind (o := fun _ => .loop (n + 1) rest) (e := fun _ => .ended)
      (by simp [sweeps, hc, OutboxCall.move]) (fun _ => Machine.Runs.pure rfl) fun _ => rfl

theorem runs_publishRecords (hc : calls t = .publishPending env batchSize aggregateId) :
    ∀ (records : List (OutboxRecord δ)) (n p f : ℕ),
      (sweeps calls).Runs t AfterLoop (publishRecords env t n records p f) (.loop n records)
  | [], _, _, _ => Machine.Runs.pure rfl
  | record :: rest, n, p, f => by
    unfold publishRecords
    refine Machine.Runs.bind (runs_publishRecord hc) ?_ fun _ _ h => h
    rintro (_ | _) s rfl
    · exact runs_publishRecords hc rest (n + 1) p (f + 1)
    · exact runs_publishRecords hc rest (n + 1) (p + 1) f

theorem runs_outboxCall (t : τ) :
    (sweeps calls).Runs t (fun _ s => s = .ended) ((calls t).program t) .start := by
  rcases hc : calls t with ⟨dbError, fate, id, event, now⟩ | ⟨env, batchSize, aggregateId⟩
  · exact Machine.Runs.await_bind (o := fun _ => .ended) (e := fun _ => .ended)
      (by simp [sweeps, hc, OutboxCall.move]) (fun _ => Machine.Runs.pure rfl) fun _ => rfl
  · refine Machine.Runs.bind (K := fun _ s => s = .ended) ?_ (fun _ _ h => Machine.Runs.pure h)
      fun _ _ h => h
    unfold publishPending
    refine Machine.Runs.await_bind (o := SweepPhase.loop 0) (e := fun _ => .ended)
      (by simp [sweeps, hc, OutboxCall.move]) (fun records => ?_) fun _ => rfl
    refine Machine.Runs.bind (runs_publishRecords hc records 0 0 0) ?_ fun _ _ h => h
    rintro ⟨p, f⟩ s rfl
    exact Machine.Runs.await_bind (o := fun _ => .ended) (e := fun _ => .ended)
      (by simp [sweeps, hc, OutboxCall.move]) (fun _ => Machine.Runs.pure rfl) fun _ => rfl

/-- Every run of calls on the outbox is a trace of the machine. -/
theorem trace_of_outbox_run [DecidableEq τ] {db : Outbox τ δ} {h : List (Taken τ (Outbox τ δ))}
    {c : Config τ (Outbox τ δ) OutboxError (Option PublishBatchSummary)}
    (hrun : (outboxFrom db calls).Run h c) : (sweeps calls).Trace db h c.world :=
  (Machine.trace_of_run runs_outboxCall hrun).1

/-! ## What a statement does -/

section Effects

/-- The outbox after the row is marked, if it is there. -/
def Outbox.markRow (db : Outbox τ δ) (id : String) (publishedAt : Time) : Outbox τ δ :=
  match db.rows.row id with
  | none => db
  | some r => { db with
      rows := db.rows.set id { r with
        status := .published
        publishedAt := some publishedAt
        lastError := none } }

/-- The outbox after the failure is recorded, if the row is there and can count it. -/
def Outbox.failRow (db : Outbox τ δ) (t : τ) (id error : String) : Outbox τ δ :=
  match db.rows.row id with
  | none => db
  | some r => if r.retryCount + 1 ≤ 2147483647 then db.failed t id error r else db

/-- The records of the rows, as they are now. -/
def Outbox.records (db : Outbox τ δ) (ids : List String) : List (OutboxRecord δ) :=
  ids.filterMap fun id => (db.rows.row id).map fun r => ⟨id, r⟩

/-- The statements of a call: where it stood, the outbox before and after, and where it stands. -/
inductive SweepMove (t : τ) (db : Outbox τ δ) :
    OutboxCall δ → SweepPhase δ → Outbox τ δ → SweepPhase δ → Prop
  | quit {call : OutboxCall δ} {p : SweepPhase δ} (hp : p = .start ∨ p = .counting) :
      SweepMove t db call p db .ended
  | inserted {dbError : OutboxError} {fate : Fate} {id : String} {event : DomainEvent δ}
      {now : Time} (hfate : fate ≠ .failed)
      (hevent : ∀ k r, db.rows.row k = some r → r.payload.eventId ≠ event.eventId)
      (hid : db.rows.row id = none) :
      SweepMove t db (.insert dbError fate id event now) .start
        { db with rows := db.rows.set id ⟨event, .pending, 0, now, none, none⟩ } .ended
  | fetched {env : SweepEnv} {batchSize : ℤ} {aggregateId : Option String}
      (hb : IsBatch (pendingRows db (truthy aggregateId)) (createdAt db) batchSize.toNat
        env.picked) :
      SweepMove t db (.publishPending env batchSize aggregateId) .start db
        (.loop 0 (db.records env.picked))
  | sent {env : SweepEnv} {batchSize : ℤ} {aggregateId : Option String} {n : ℕ}
      {record : OutboxRecord δ} {rest : List (OutboxRecord δ)} {p : SweepPhase δ}
      (hp : env.onPublish n = .answered ∧ p = .marking n record rest
        ∨ env.onPublish n = .answerLost ∧ ∃ err, p = .recording n err record rest) :
      SweepMove t db (.publishPending env batchSize aggregateId) (.publishing n record rest)
        (db.log (.accepted t record.row.payload.eventType record.row.payload)) p
  | rejected {env : SweepEnv} {batchSize : ℤ} {aggregateId : Option String} {n : ℕ}
      {record : OutboxRecord δ} {rest : List (OutboxRecord δ)} {err : OutboxError}
      (hfate : env.onPublish n = .failed) :
      SweepMove t db (.publishPending env batchSize aggregateId) (.publishing n record rest)
        (db.log (.rejected t record.row.payload.eventType record.row.payload))
        (.recording n err record rest)
  | marked {env : SweepEnv} {batchSize : ℤ} {aggregateId : Option String} {n : ℕ}
      {record : OutboxRecord δ} {rest : List (OutboxRecord δ)} {p : SweepPhase δ}
      (hp : env.onMark n = .answered ∧ p = .loop (n + 1) rest
        ∨ env.onMark n = .answerLost ∧ ∃ err, p = .recording n err record rest) :
      SweepMove t db (.publishPending env batchSize aggregateId) (.marking n record rest)
        (db.markRow record.id (env.now n)) p
  | unmarked {env : SweepEnv} {batchSize : ℤ} {aggregateId : Option String} {n : ℕ}
      {record : OutboxRecord δ} {rest : List (OutboxRecord δ)} {err : OutboxError}
      (hfate : env.onMark n = .failed) :
      SweepMove t db (.publishPending env batchSize aggregateId) (.marking n record rest) db
        (.recording n err record rest)
  | recorded {env : SweepEnv} {batchSize : ℤ} {aggregateId : Option String} {n : ℕ}
      {err : OutboxError} {record : OutboxRecord δ} {rest : List (OutboxRecord δ)}
      {p : SweepPhase δ} (hfate : env.onRecord n ≠ .failed)
      (hp : p = .loop (n + 1) rest ∨ p = .ended) :
      SweepMove t db (.publishPending env batchSize aggregateId) (.recording n err record rest)
        (db.failRow t record.id err.text) p
  | unrecorded {env : SweepEnv} {batchSize : ℤ} {aggregateId : Option String} {n : ℕ}
      {err : OutboxError} {record : OutboxRecord δ} {rest : List (OutboxRecord δ)}
      (hfate : env.onRecord n = .failed) :
      SweepMove t db (.publishPending env batchSize aggregateId) (.recording n err record rest)
        db .ended

theorem markPublished_world {db db' : Outbox τ δ} {id : String} {publishedAt : Time}
    {r : Except OutboxError Unit} (h : markPublished id publishedAt db = some (r, db')) :
    r = .ok () ∧ db' = db.markRow id publishedAt := by
  unfold markPublished at h
  unfold Outbox.markRow
  cases hrow : db.rows.row id <;> simp only [hrow, Option.some.injEq, Prod.mk.injEq] at h <;>
    exact ⟨h.1.symm, h.2.symm⟩

theorem recordFailure_world {db db' : Outbox τ δ} {outOfRange : OutboxError} {id error : String}
    {r : Except OutboxError Unit} (h : recordFailure outOfRange t id error db = some (r, db')) :
    db' = db.failRow t id error := by
  unfold recordFailure at h
  unfold Outbox.failRow
  cases hrow : db.rows.row id with
  | none => simp_all
  | some row =>
    simp only [hrow] at h ⊢
    by_cases hint : row.retryCount + 1 ≤ 2147483647
    · rw [if_pos hint] at h ⊢
      exact (Prod.mk.inj (Option.some.inj h)).2.symm
    · rw [if_neg hint] at h ⊢
      exact (Prod.mk.inj (Option.some.inj h)).2.symm

theorem sweepMove_insert {db db' : Outbox τ δ} {dbError : OutboxError} {fate : Fate}
    {id : String} {event : DomainEvent δ} {now : Time} {r : Except OutboxError Unit}
    (hfate : fate ≠ .failed) (h : insertOutbox dbError id event now db = some (r, db')) :
    SweepMove t db (.insert dbError fate id event now) .start db' .ended := by
  rcases insertOutbox_eq_some h with rfl | ⟨hevent, hid, rfl⟩
  · exact .quit (.inl rfl)
  · exact .inserted hfate hevent hid

theorem fetchPendingBatch_eq_some {db db' : Outbox τ δ} {negative : OutboxError}
    {picked : List String} {limit : ℤ} {r : Except OutboxError (List (OutboxRecord δ))}
    (h : fetchPendingBatch negative picked limit aggregateId db = some (r, db')) :
    db' = db ∧ ∀ records, r = .ok records → records = db.records picked
      ∧ IsBatch (pendingRows db (truthy aggregateId)) (createdAt db) limit.toNat picked := by
  unfold fetchPendingBatch at h
  split_ifs at h with hneg hb <;> simp only [Option.some.injEq, Prod.mk.injEq] at h <;>
    obtain ⟨rfl, rfl⟩ := h
  · exact ⟨rfl, fun _ he => by cases he⟩
  · refine ⟨rfl, fun records he => ?_⟩
    rw [← Except.ok.inj he]
    exact ⟨rfl, hb⟩

/-- A move is one of the statements. -/
theorem sweepMove_of_move {call : OutboxCall δ} {p p' : SweepPhase δ} {db db' : Outbox τ δ}
    (h : call.move t p db = some (db', p')) : SweepMove t db call p db' p' := by
  unfold OutboxCall.move at h
  split at h
  · obtain ⟨r, hr, rfl⟩ : ∃ r, autocommit _ _ _ db = some (r, db') ∧ p' = .ended := by
      rcases Machine.segment_eq_some.1 h with ⟨_, hx, rfl⟩ | ⟨_, hx, rfl⟩ <;> exact ⟨_, hx, rfl⟩
    rcases autocommit_eq_some.1 hr with ⟨hf, hx⟩ | ⟨-, -, rfl⟩ | ⟨hf, -, _, hx⟩
    · exact sweepMove_insert (by simp [hf]) hx
    · exact .quit (.inl rfl)
    · exact sweepMove_insert (by simp [hf]) hx
  · rcases Machine.segment_eq_some.1 h with ⟨_, hx, rfl⟩ | ⟨_, hx, rfl⟩ <;>
      rcases autocommit_eq_some.1 hx with ⟨-, hx⟩ | ⟨-, hr, rfl⟩ | ⟨-, hr, _, hx⟩
    · obtain ⟨rfl, hok⟩ := fetchPendingBatch_eq_some hx
      obtain ⟨rfl, hb⟩ := hok _ rfl
      exact .fetched hb
    · cases hr
    · cases hr
    · obtain ⟨rfl, -⟩ := fetchPendingBatch_eq_some hx
      exact .quit (.inl rfl)
    · exact .quit (.inl rfl)
    · obtain ⟨rfl, -⟩ := fetchPendingBatch_eq_some hx
      exact .quit (.inl rfl)
  · rename_i env _ _ n record rest
    rcases Machine.segment_eq_some.1 h with ⟨_, hx, rfl⟩ | ⟨_, hx, rfl⟩ <;>
      unfold publish at hx <;> rcases hf : env.onPublish n with _ | _ | _ <;> rw [hf] at hx <;>
      simp only [Option.some.injEq, Prod.mk.injEq, reduceCtorEq, false_and] at hx <;>
      obtain ⟨-, rfl⟩ := hx
    · exact .sent (.inl ⟨hf, rfl⟩)
    · exact .rejected hf
    · exact .sent (.inr ⟨hf, _, rfl⟩)
  · rcases Machine.segment_eq_some.1 h with ⟨_, hx, rfl⟩ | ⟨_, hx, rfl⟩ <;>
      rcases autocommit_eq_some.1 hx with ⟨hf, hx⟩ | ⟨hf, hr, rfl⟩ | ⟨hf, hr, _, hx⟩
    · obtain ⟨-, rfl⟩ := markPublished_world hx
      exact .marked (.inl ⟨hf, rfl⟩)
    · cases hr
    · cases hr
    · obtain ⟨he, -⟩ := markPublished_world hx
      cases he
    · exact .unmarked hf
    · obtain ⟨-, rfl⟩ := markPublished_world hx
      exact .marked (.inr ⟨hf, _, rfl⟩)
  · rcases Machine.segment_eq_some.1 h with ⟨_, hx, rfl⟩ | ⟨_, hx, rfl⟩ <;>
      rcases autocommit_eq_some.1 hx with ⟨hf, hx⟩ | ⟨hf, hr, rfl⟩ | ⟨hf, hr, _, hx⟩
    · rw [recordFailure_world hx]
      exact .recorded (by simp [hf]) (.inl rfl)
    · cases hr
    · cases hr
    · rw [recordFailure_world hx]
      exact .recorded (by simp [hf]) (.inr rfl)
    · exact .unrecorded hf
    · rw [recordFailure_world hx]
      exact .recorded (by simp [hf]) (.inr rfl)
  · obtain ⟨r, hr, rfl⟩ : ∃ r, autocommit _ _ _ db = some (r, db') ∧ p' = .ended := by
      rcases Machine.segment_eq_some.1 h with ⟨_, hx, rfl⟩ | ⟨_, hx, rfl⟩ <;> exact ⟨_, hx, rfl⟩
    have hworld : db' = db := by
      rcases autocommit_eq_some.1 hr with ⟨-, hx⟩ | ⟨-, -, rfl⟩ | ⟨-, -, _, hx⟩
      · simp only [countPending, Sync.read_apply, Option.some.injEq, Prod.mk.injEq] at hx
        exact hx.2.symm
      · rfl
      · simp only [countPending, Sync.read_apply, Option.some.injEq, Prod.mk.injEq] at hx
        exact hx.2.symm
    rw [hworld]
    exact .quit (.inr rfl)
  · cases h

end Effects

/-! ## What a sweep knows of the rows in its hands -/

section InHand

variable {db db' : Outbox τ δ} {p p' : SweepPhase δ} {call : OutboxCall δ}

/-- Rows stay, with their events and the time they were created; the broker's log grows. -/
structure Grows (db db' : Outbox τ δ) : Prop where
  rows : ∀ id r, db.rows.row id = some r → ∃ r', db'.rows.row id = some r'
    ∧ r'.payload = r.payload ∧ r'.createdAt = r.createdAt
  broker : ∀ e ∈ db.broker, e ∈ db'.broker

/-- The rows in hand are in the table, and the event of the one to be marked has been accepted. -/
structure InHand (t : τ) (p : SweepPhase δ) (db : Outbox τ δ) : Prop where
  known : ∀ record ∈ p.held, ∃ r, db.rows.row record.id = some r
    ∧ r.payload = record.row.payload ∧ r.createdAt = record.row.createdAt
  sent : ∀ n record rest, p = .marking n record rest →
    .accepted t record.row.payload.eventType record.row.payload ∈ db.broker

theorem Grows.refl (db : Outbox τ δ) : Grows db db :=
  ⟨fun _ r hrow => ⟨r, hrow, rfl, rfl⟩, fun _ he => he⟩

theorem grows_log (db : Outbox τ δ) (e : BrokerEvent τ δ) : Grows db (db.log e) :=
  ⟨fun _ r hrow => ⟨r, hrow, rfl, rfl⟩, fun _ he => List.mem_append_left _ he⟩

/-- A row is written that was not there, or had the same event and time. -/
theorem grows_set {id : String} {r' : OutboxRow δ} {failures : List (τ × String)}
    (h : ∀ r, db.rows.row id = some r → r'.payload = r.payload ∧ r'.createdAt = r.createdAt) :
    Grows db { db with rows := db.rows.set id r', failures := failures } := by
  refine ⟨fun id₁ r hrow => ?_, fun _ he => he⟩
  rcases eq_or_ne id₁ id with rfl | hne
  · exact ⟨r', Table.set_row_self .., h r hrow⟩
  · exact ⟨r, by rw [Table.set_row, if_neg hne]; exact hrow, rfl, rfl⟩

theorem grows_markRow (db : Outbox τ δ) (id : String) (publishedAt : Time) :
    Grows db (db.markRow id publishedAt) := by
  unfold Outbox.markRow
  cases hrow : db.rows.row id with
  | none => exact .refl db
  | some row => exact grows_set fun r hr => by rw [Option.some.inj (hrow.symm.trans hr)]; simp

theorem grows_failRow (db : Outbox τ δ) (t : τ) (id error : String) :
    Grows db (db.failRow t id error) := by
  unfold Outbox.failRow
  cases hrow : db.rows.row id with
  | none => exact .refl db
  | some row =>
    simp only
    split_ifs
    · exact grows_set fun r hr => by rw [Option.some.inj (hrow.symm.trans hr)]; simp
    · exact .refl db

theorem SweepMove.grows (hm : SweepMove t db call p db' p') : Grows db db' := by
  cases hm with
  | quit => exact .refl db
  | inserted _ _ hid => exact grows_set fun r hr => by simp [hid] at hr
  | fetched => exact .refl db
  | sent => exact grows_log db _
  | rejected => exact grows_log db _
  | marked => exact grows_markRow db _ _
  | unmarked => exact .refl db
  | recorded => exact grows_failRow db _ _ _
  | unrecorded => exact .refl db

theorem InHand.mono (h : InHand t p db) (hg : Grows db db') : InHand t p db' := by
  refine ⟨fun record hr => ?_, fun n record rest hp => hg.broker _ (h.sent n record rest hp)⟩
  obtain ⟨r, hrow, hpay, hat⟩ := h.known record hr
  obtain ⟨r', hrow', hpay', hat'⟩ := hg.rows _ r hrow
  exact ⟨r', hrow', hpay'.trans hpay, hat'.trans hat⟩

/-- A sweep that lets go of rows, or keeps them and has nothing to mark. -/
theorem InHand.of_subset (h : InHand t p db) (hsub : ∀ record ∈ p'.held, record ∈ p.held)
    (hp' : ∀ n record rest, p' ≠ .marking n record rest) : InHand t p' db :=
  ⟨fun record hr => h.known record (hsub record hr),
    fun n record rest he => absurd he (hp' n record rest)⟩

theorem mem_records {ids : List String} {record : OutboxRecord δ} :
    record ∈ db.records ids ↔ record.id ∈ ids ∧ db.rows.row record.id = some record.row := by
  simp only [Outbox.records, List.mem_filterMap, Option.map_eq_some_iff]
  constructor
  · rintro ⟨id, hid, r, hr, rfl⟩
    exact ⟨hid, hr⟩
  · rintro ⟨hid, hr⟩
    exact ⟨record.id, hid, record.row, hr, rfl⟩

/-- The records' ids are those asked for, in the same order. -/
theorem records_sublist (db : Outbox τ δ) : ∀ ids : List String,
    ((db.records ids).map OutboxRecord.id).Sublist ids
  | [] => .slnil
  | id :: ids => by
    have ih := records_sublist db ids
    unfold Outbox.records at ih ⊢
    rw [List.filterMap_cons]
    rcases db.rows.row id with _ | r
    · exact ih.cons id
    · exact ih.cons_cons id

theorem pending_of_mem_pendingRows {scope : Option String} {id : String} {r : OutboxRow δ}
    (h : id ∈ pendingRows db scope) (hrow : db.rows.row id = some r) : r.IsPending scope := by
  obtain ⟨r', hrow', hpending⟩ := mem_pendingRows.1 h
  obtain rfl := Option.some.inj (hrow'.symm.trans hrow)
  exact hpending

theorem markRow_of_row {id : String} {r : OutboxRow δ} {publishedAt : Time}
    (hrow : db.rows.row id = some r) : db.markRow id publishedAt = { db with
      rows := db.rows.set id { r with
        status := .published
        publishedAt := some publishedAt
        lastError := none } } := by
  simp [Outbox.markRow, hrow]

theorem SweepPhase.loop_ne_marking (k n : ℕ) (record : OutboxRecord δ)
    (records rest : List (OutboxRecord δ)) : loop k records ≠ .marking n record rest := by
  cases records <;> simp [loop]

theorem SweepMove.inHand (hm : SweepMove t db call p db' p') (h : InHand t p db) :
    InHand t p' db' := by
  have hmono := h.mono hm.grows
  cases hm with
  | quit => exact ⟨by simp, by simp⟩
  | inserted => exact ⟨by simp, by simp⟩
  | fetched hb =>
    refine ⟨fun record hr => ?_, fun n record rest => ?_⟩
    · rw [SweepPhase.held_loop, mem_records] at hr
      exact ⟨record.row, hr.2, rfl, rfl⟩
    · exact fun hp => absurd hp (SweepPhase.loop_ne_marking _ n record _ rest)
  | sent hp =>
    rcases hp with ⟨-, rfl⟩ | ⟨-, err, rfl⟩
    · refine ⟨hmono.known, fun n record rest hp => ?_⟩
      cases hp
      simp [Outbox.log]
    · exact hmono.of_subset (fun _ hr => hr) (by simp)
  | rejected => exact hmono.of_subset (fun _ hr => hr) (by simp)
  | marked hp =>
    rcases hp with ⟨-, rfl⟩ | ⟨-, err, rfl⟩
    · exact hmono.of_subset (by simp +contextual) (SweepPhase.loop_ne_marking _ · · _ ·)
    · exact hmono.of_subset (fun _ hr => hr) (by simp)
  | unmarked => exact hmono.of_subset (fun _ hr => hr) (by simp)
  | recorded _ hp =>
    rcases hp with rfl | rfl
    · exact hmono.of_subset (by simp +contextual) (SweepPhase.loop_ne_marking _ · · _ ·)
    · exact ⟨by simp, by simp⟩
  | unrecorded => exact ⟨by simp, by simp⟩

end InHand

/-- Every sweep knows the rows in its hands, all along a trace. -/
theorem inHand_of_trace [DecidableEq τ] {db₀ db : Outbox τ δ} {h : List (Taken τ (Outbox τ δ))}
    (ht : (sweeps calls).Trace db₀ h db) (t : τ) : InHand t ((sweeps calls).phases h t) db := by
  induction ht with
  | nil => exact ⟨by simp [sweeps], by simp [sweeps]⟩
  | @snoc h db db' t' p ht hm ih =>
    have hmove := sweepMove_of_move hm
    rw [Machine.phases_snoc, Machine.advance_of_move hm]
    rcases eq_or_ne t t' with rfl | hne
    · rw [Function.update_self]
      exact hmove.inHand ih
    · rw [Function.update_of_ne hne]
      exact ih.mono hmove.grows

theorem Grows.trans {db db₁ db₂ : Outbox τ δ} (h : Grows db db₁) (h' : Grows db₁ db₂) :
    Grows db db₂ := by
  refine ⟨fun id r hrow => ?_, fun e he => h'.broker e (h.broker e he)⟩
  obtain ⟨r₁, hrow₁, hpay₁, hat₁⟩ := h.rows id r hrow
  obtain ⟨r₂, hrow₂, hpay₂, hat₂⟩ := h'.rows id r₁ hrow₁
  exact ⟨r₂, hrow₂, hpay₂.trans hpay₁, hat₂.trans hat₁⟩

theorem grows_of_trace [DecidableEq τ] {db₀ db₁ db : Outbox τ δ}
    {h₁ h : List (Taken τ (Outbox τ δ))} (ht₁ : (sweeps calls).Trace db₀ h₁ db₁)
    (ht : (sweeps calls).Trace db₀ h db) (hp : h₁ <+: h) : Grows db₁ db := by
  induction ht with
  | nil =>
    obtain rfl := List.prefix_nil.1 hp
    rw [ht₁.world_unique .nil]
    exact .refl db₀
  | snoc ht hm ih =>
    rcases List.prefix_concat_iff.1 hp with rfl | hp'
    · rw [ht₁.world_unique (ht.snoc hm)]
      exact .refl _
    · exact (ih hp').trans (sweepMove_of_move hm).grows

end LaunchPad
