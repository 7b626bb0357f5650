import LaunchPad.Outbox

/-!
# Events inserted within transactions

`insertWithinTransaction` inserts an event in the transaction of its caller, which commits it
together with the caller's own changes, or rolls it back. Until then the row is seen by nobody else;
an insert of the same event waits for it. `insert` is a transaction of its own. The sweeps see the
committed rows only.
-/

namespace LaunchPad

open Interleave Rows

/-- The committed outbox, and the rows of the transactions that have not ended, the oldest first. -/
structure SharedOutbox (τ δ : Type) where
  outbox : Outbox τ δ
  uncommitted : List (τ × OutboxRecord δ)

def SharedOutbox.empty {τ δ : Type} : SharedOutbox τ δ := ⟨.empty, []⟩

section Statements

variable {τ δ : Type} [DecidableEq τ]

/-- The rows that the transaction has inserted. -/
def SharedOutbox.rowsOf (v : SharedOutbox τ δ) (t : τ) : List (String × OutboxRow δ) :=
  (v.uncommitted.filter fun p => p.1 = t).map fun p => (p.2.id, p.2.row)

def SharedOutbox.rollback (v : SharedOutbox τ δ) (t : τ) : SharedOutbox τ δ :=
  { v with uncommitted := v.uncommitted.filter fun p => p.1 ≠ t }

def SharedOutbox.commit (v : SharedOutbox τ δ) (t : τ) : SharedOutbox τ δ where
  outbox := { v.outbox with rows := v.outbox.rows.setAll (v.rowsOf t) }
  uncommitted := v.uncommitted.filter fun p => p.1 ≠ t

/-- `INSERT INTO outbox_messages (...) VALUES (..., 'PENDING', 0, NOW())
ON CONFLICT (event_id) DO NOTHING`, in the transaction `t`. It waits for a transaction that has
inserted the same event or the same id. -/
def insertWithinTransaction (duplicate : OutboxError) (t : τ) (id : String)
    (event : DomainEvent δ) (now : Time) : Sync (SharedOutbox τ δ) OutboxError Unit := fun v =>
  if ∃ p ∈ v.uncommitted, p.1 ≠ t
      ∧ (p.2.row.payload.eventId = event.eventId ∨ p.2.id = id) then none
  else if (∃ k ∈ v.outbox.rows.keys,
        (v.outbox.rows.row k).any (fun r => r.payload.eventId = event.eventId))
      ∨ ∃ p ∈ v.uncommitted, p.2.row.payload.eventId = event.eventId then some (.ok (), v)
  else if (v.outbox.rows.row id).isSome ∨ ∃ p ∈ v.uncommitted, p.2.id = id then
    some (.error duplicate, v)
  else some (.ok (), { v with
    uncommitted := v.uncommitted ++ [(t, ⟨id, ⟨event, .pending, 0, now, none, none⟩⟩)] })

end Statements

/-- What the surroundings decide in one transaction: how each statement ends, and whether the caller
rolls back in the end. -/
structure InsertEnv where
  dbError : OutboxError
  onBegin : Fate
  onInsert : ℕ → Fate
  rollsBack : Bool
  onCommit : Fate
  onRollback : Fate

/-- An event is inserted on its own, or some within a transaction, or a sweep is made. -/
inductive SharedCall (δ : Type)
  | insert (dbError : OutboxError) (fate : Fate) (id : String) (event : DomainEvent δ) (now : Time)
  | transaction (env : InsertEnv) (events : List (String × DomainEvent δ)) (now : Time)
  | publishPending (env : SweepEnv) (batchSize : ℤ) (aggregateId : Option String)

section Calls

variable {τ δ : Type} [DecidableEq τ]

open Async (await)

def outboxTx (env : InsertEnv) (t : τ) : TxEnds (SharedOutbox τ δ) OutboxError :=
  ⟨fun v => v.commit t, fun v => v.rollback t, env.dbError⟩

/-- The events inserted by the transaction, from its `n`-th one on. -/
def insertEvents (env : InsertEnv) (t : τ) (now : Time) :
    ℕ → List (String × DomainEvent δ) → Async (SharedOutbox τ δ) OutboxError Unit
  | _, [] => pure ()
  | n, (id, event) :: rest => do
    await ((outboxTx env t).statement (env.onInsert n)
      (insertWithinTransaction env.dbError t id event now))
    insertEvents env t now (n + 1) rest

/-- A caller's transaction with events in it. -/
def insertingTransaction (env : InsertEnv) (t : τ) (events : List (String × DomainEvent δ))
    (now : Time) : Async (SharedOutbox τ δ) OutboxError Unit :=
  tryCatch
    (do
      await ((outboxTx env t).beginTx env.onBegin)
      insertEvents env t now 0 events
      if env.rollsBack then await ((outboxTx env t).rollbackTx env.onRollback)
      else await ((outboxTx env t).commitTx env.onCommit))
    fun err => do
      await ((outboxTx env t).rollbackTx env.onRollback)
      throw err

/-- `insert(event)`: the statement is a transaction of its own. -/
def insertAlone (duplicate : OutboxError) (t : τ) (id : String) (event : DomainEvent δ)
    (now : Time) : Sync (SharedOutbox τ δ) OutboxError Unit := do
  insertWithinTransaction duplicate t id event now
  Sync.modify fun v => v.commit t

def SharedCall.program (t : τ) :
    SharedCall δ → Async (SharedOutbox τ δ) OutboxError (Option PublishBatchSummary)
  | .insert dbError fate id event now => do
    await (autocommit dbError fate (insertAlone dbError t id event now))
    pure none
  | .transaction env events now => do
    insertingTransaction env t events now
    pure none
  | .publishPending env batchSize aggregateId =>
    ((OutboxCall.publishPending env batchSize aggregateId).program t).zoom SharedOutbox.outbox
      fun v outbox => { v with outbox := outbox }

/-- The calls, none of which has started, before an empty outbox. -/
def sharedCalls (calls : τ → SharedCall δ) :
    Config τ (SharedOutbox τ δ) OutboxError (Option PublishBatchSummary) :=
  ⟨.empty, fun t => (calls t).program t⟩

omit [DecidableEq τ] in
/-- The call inserts the event under this id, and the insert takes effect: nothing fails before its
COMMIT, which the caller does make. -/
def SharedCall.Commits (id : String) (event : DomainEvent δ) : SharedCall δ → Prop
  | .insert _ fate id' event' _ => id' = id ∧ event' = event ∧ fate ≠ .failed
  | .transaction env events _ => (id, event) ∈ events ∧ env.onBegin = .answered
    ∧ (∀ n < events.length, env.onInsert n = .answered) ∧ env.rollsBack = false
    ∧ env.onCommit ≠ .failed
  | .publishPending _ _ _ => False

end Calls

end LaunchPad
