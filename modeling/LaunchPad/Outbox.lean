import LaunchPad.Basic
import LaunchPad.Lib.Batch
import LaunchPad.Lib.Table
import LaunchPad.Lib.Transaction

/-!
# The outbox

`PostgresOutboxRepository` over the table `outbox_messages`, and the sweeps of `OutboxPublisher`.
Every statement runs outside a transaction, so it holds no lock when it is done, and `SKIP LOCKED`
skips nothing. The broker accepts or rejects what it is sent, or accepts it and loses the answer.

The broker's answers and the failures recorded are logged, with the sweep they belong to.
-/

namespace LaunchPad

open Interleave Rows

/-- An event; `δ` is what the outbox does not look at. -/
structure DomainEvent (δ : Type) where
  eventId : String
  eventType : String
  aggregateId : String
  rest : δ
deriving DecidableEq

inductive OutboxStatus
  | pending
  | published
  | failed
deriving DecidableEq

/-- A row of `outbox_messages`. The columns `event_id`, `event_type` and `aggregate_id` are the
payload's. -/
structure OutboxRow (δ : Type) where
  payload : DomainEvent δ
  status : OutboxStatus
  retryCount : ℕ
  createdAt : Time
  publishedAt : Option Time
  lastError : Option String
deriving DecidableEq

structure OutboxRecord (δ : Type) where
  id : String
  row : OutboxRow δ
deriving DecidableEq

/-- What is thrown: an `Error` with its message, or something else. -/
structure OutboxError where
  message : Option String
deriving DecidableEq

/-- `err instanceof Error ? err.message : 'Unknown broker publish error'` -/
def OutboxError.text (e : OutboxError) : String :=
  e.message.getD "Unknown broker publish error"

/-- What the broker did with an event it was sent by the call `t`. -/
inductive BrokerEvent (τ δ : Type)
  | accepted (t : τ) (topic : String) (event : DomainEvent δ)
  | rejected (t : τ) (topic : String) (event : DomainEvent δ)
deriving DecidableEq

/-- The table, the broker's log, and the failures recorded, each with its row. -/
structure Outbox (τ δ : Type) where
  rows : Table String (OutboxRow δ)
  broker : List (BrokerEvent τ δ)
  failures : List (τ × String)

def Outbox.empty {τ δ : Type} : Outbox τ δ := ⟨.empty, [], []⟩

section Statements

variable {τ δ : Type}

/-- `INSERT INTO outbox_messages (...) VALUES (..., 'PENDING', 0, NOW())
ON CONFLICT (event_id) DO NOTHING` -/
def insertOutbox (duplicate : OutboxError) (id : String) (event : DomainEvent δ) (now : Time) :
    Sync (Outbox τ δ) OutboxError Unit := fun db =>
  if ∃ k ∈ db.rows.keys, (db.rows.row k).any (fun r => r.payload.eventId = event.eventId) then
    some (.ok (), db)
  else if (db.rows.row id).isSome then some (.error duplicate, db)
  else some (.ok (), { db with rows := db.rows.set id ⟨event, .pending, 0, now, none, none⟩ })

/-- `status = 'PENDING'`, and the aggregate asked for, if any. -/
def OutboxRow.IsPending (r : OutboxRow δ) (scope : Option String) : Prop :=
  r.status = .pending ∧ (scope = none ∨ scope = some r.payload.aggregateId)

instance (r : OutboxRow δ) (scope : Option String) : Decidable (r.IsPending scope) :=
  inferInstanceAs (Decidable (_ ∧ _))

def pendingRows (db : Outbox τ δ) (scope : Option String) : Finset String :=
  db.rows.keys.filter fun id =>
    (db.rows.row id).any (fun r => decide (r.IsPending scope)) = true

def createdAt (db : Outbox τ δ) (id : String) : Time :=
  ((db.rows.row id).map OutboxRow.createdAt).getD 0

/-- `SELECT ... ORDER BY created_at ASC LIMIT limit FOR UPDATE SKIP LOCKED`. The environment says
which of the possible answers the database gives. -/
def fetchPendingBatch (negative : OutboxError) (picked : List String) (limit : ℤ)
    (aggregateId : Option String) : Sync (Outbox τ δ) OutboxError (List (OutboxRecord δ)) :=
  fun db =>
    if limit < 0 then some (.error negative, db)
    else if IsBatch (pendingRows db (truthy aggregateId)) (createdAt db) limit.toNat picked then
      some (.ok (picked.filterMap fun id => (db.rows.row id).map fun r => ⟨id, r⟩), db)
    else none

/-- `UPDATE outbox_messages SET status = 'PUBLISHED', published_at = $1, last_error = NULL
WHERE id = $2` -/
def markPublished (id : String) (publishedAt : Time) : Sync (Outbox τ δ) OutboxError Unit :=
  fun db =>
    match db.rows.row id with
    | none => some (.ok (), db)
    | some r => some (.ok (), { db with
        rows := db.rows.set id { r with
          status := .published
          publishedAt := some publishedAt
          lastError := none } })

/-- `UPDATE outbox_messages SET status = CASE WHEN retry_count >= 5 THEN 'FAILED' ELSE 'PENDING' END,
retry_count = retry_count + 1, last_error = $1 WHERE id = $2`. The column is an INT. -/
def recordFailure (outOfRange : OutboxError) (t : τ) (id error : String) :
    Sync (Outbox τ δ) OutboxError Unit := fun db =>
  match db.rows.row id with
  | none => some (.ok (), db)
  | some r =>
    if r.retryCount + 1 ≤ 2147483647 then
      some (.ok (), { db with
        rows := db.rows.set id { r with
          status := if 5 ≤ r.retryCount then .failed else .pending
          retryCount := r.retryCount + 1
          lastError := some error }
        failures := db.failures ++ [(t, id)] })
    else some (.error outOfRange, db)

/-- `SELECT COUNT(*) FROM outbox_messages WHERE status = 'PENDING'` -/
def countPending (aggregateId : Option String) : Sync (Outbox τ δ) OutboxError ℕ :=
  Sync.read fun db => (pendingRows db (truthy aggregateId)).card

/-- `broker.publish(topic, event)` -/
def publish (rejection : OutboxError) (fate : Fate) (t : τ) (topic : String)
    (event : DomainEvent δ) : Sync (Outbox τ δ) OutboxError Unit := fun db =>
  match fate with
  | .answered => some (.ok (), { db with broker := db.broker ++ [.accepted t topic event] })
  | .failed => some (.error rejection, { db with broker := db.broker ++ [.rejected t topic event] })
  | .answerLost =>
    some (.error rejection, { db with broker := db.broker ++ [.accepted t topic event] })

end Statements

/-! ## `OutboxPublisher.publishPending` -/

structure PublishBatchSummary where
  published : ℕ
  failed : ℕ
  remaining : ℕ
deriving DecidableEq

/-- What the surroundings decide in one sweep: the rows it is given, how each statement and each
publish ends, the texts of the errors, and the clock. -/
structure SweepEnv where
  picked : List String
  dbError : OutboxError
  onFetch : Fate
  onPublish : ℕ → Fate
  rejection : ℕ → OutboxError
  onMark : ℕ → Fate
  onRecord : ℕ → Fate
  onCount : Fate
  now : ℕ → Time

section Calls

variable {τ δ : Type}

open Async (await)

/-- One turn of the loop. Says whether the event was published. -/
def publishRecord (env : SweepEnv) (t : τ) (n : ℕ) (record : OutboxRecord δ) :
    Async (Outbox τ δ) OutboxError Bool :=
  tryCatch
    (do
      await (publish (env.rejection n) (env.onPublish n) t record.row.payload.eventType
        record.row.payload)
      await (autocommit env.dbError (env.onMark n) (markPublished record.id (env.now n)))
      pure true)
    fun err => do
      await (autocommit env.dbError (env.onRecord n)
        (recordFailure env.dbError t record.id err.text))
      pure false

/-- The loop, from its `n`-th turn on, with the counts so far. -/
def publishRecords (env : SweepEnv) (t : τ) :
    ℕ → List (OutboxRecord δ) → ℕ → ℕ → Async (Outbox τ δ) OutboxError (ℕ × ℕ)
  | _, [], published, failed => pure (published, failed)
  | n, record :: rest, published, failed => do
    if ← publishRecord env t n record then publishRecords env t (n + 1) rest (published + 1) failed
    else publishRecords env t (n + 1) rest published (failed + 1)

def publishPending (env : SweepEnv) (t : τ) (batchSize : ℤ) (aggregateId : Option String) :
    Async (Outbox τ δ) OutboxError PublishBatchSummary := do
  let pending ← await (autocommit env.dbError env.onFetch
    (fetchPendingBatch env.dbError env.picked batchSize aggregateId))
  let (published, failed) ← publishRecords env t 0 pending 0 0
  let remaining ← await (autocommit env.dbError env.onCount (countPending aggregateId))
  pure ⟨published, failed, remaining⟩

/-- An event is inserted, or a sweep is made. -/
inductive OutboxCall (δ : Type)
  | insert (dbError : OutboxError) (fate : Fate) (id : String) (event : DomainEvent δ) (now : Time)
  | publishPending (env : SweepEnv) (batchSize : ℤ) (aggregateId : Option String)

def OutboxCall.program (t : τ) :
    OutboxCall δ → Async (Outbox τ δ) OutboxError (Option PublishBatchSummary)
  | .insert dbError fate id event now => do
    await (autocommit dbError fate (insertOutbox dbError id event now))
    pure none
  | .publishPending env batchSize aggregateId => do
    let summary ← LaunchPad.publishPending env t batchSize aggregateId
    pure (some summary)

/-- The calls, none of which has started, before an empty outbox. -/
def outboxCalls (calls : τ → OutboxCall δ) :
    Config τ (Outbox τ δ) OutboxError (Option PublishBatchSummary) :=
  ⟨.empty, fun t => (calls t).program t⟩

/-- The broker has never accepted the event. -/
def NeverAccepted (db : Outbox τ δ) (eventId : String) : Prop :=
  ∀ t topic event, .accepted t topic event ∈ db.broker → event.eventId ≠ eventId

/-- The sweeps whose publish of the event was rejected, one for each rejection. -/
def rejectionsOf (db : Outbox τ δ) (eventId : String) : List τ :=
  db.broker.filterMap fun
    | .rejected t _ event => if event.eventId = eventId then some t else none
    | .accepted _ _ _ => none

/-- A sweep may fetch the row, and if fewer than `limit` other PENDING rows of its scope are as old,
it does. -/
def IsFetched (db : Outbox τ δ) (id : String) (r : OutboxRow δ) : Prop :=
  ∀ (negative : OutboxError) (limit : ℤ) (aggregateId : Option String),
    (truthy aggregateId = none ∨ truthy aggregateId = some r.payload.aggregateId) →
    (((pendingRows db (truthy aggregateId)).filter fun j =>
      j ≠ id ∧ createdAt db j ≤ r.createdAt).card : ℤ) < limit →
    (∃ picked, (fetchPendingBatch negative picked limit aggregateId db).isSome)
      ∧ ∀ picked res db', fetchPendingBatch negative picked limit aggregateId db = some (res, db') →
        ∃ records, res = .ok records ∧ (⟨id, r⟩ : OutboxRecord δ) ∈ records

end Calls

end LaunchPad
