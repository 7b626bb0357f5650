import LaunchPad.Basic
import LaunchPad.Lib.Table
import LaunchPad.Lib.Transaction

/-!
# The inbox of a consumer

`IdempotentConsumer.processTransactional` over the table `inbox_messages`, one segment for each SQL
statement. A side effect is the list of statements it sends through the client of the transaction;
what such a statement does is of no interest here, only that it takes effect with the COMMIT of its
transaction, and with nothing else. Where it waits for a lock of its own, it runs later.

The database logs the COMMITs that took effect, each with the statements of the side effect it made
durable.
-/

namespace LaunchPad

open Interleave Rows

/-- The texts `inbox_messages.status` holds. The column is a VARCHAR, so other texts fit. -/
inductive InboxStatus
  | processing
  | completed
  | other (text : String)
deriving DecidableEq

/-- A row of `inbox_messages`. -/
structure InboxRow where
  status : InboxStatus
  processedAt : Time
deriving DecidableEq

/-- `PRIMARY KEY (event_id, consumer_name)` -/
structure InboxKey where
  eventId : String
  consumerName : String
deriving DecidableEq

inductive InboxError
  | statementFailed
  | duplicateKey
  | sideEffectThrew
deriving DecidableEq

/-- The database, with transactions named by `τ` and side effects made of `ω`. -/
structure InboxDb (τ ω : Type) where
  inbox : TxTable τ InboxKey InboxRow
  work : τ → List ω
  commits : List (τ × List ω)

namespace InboxDb

variable {τ ω : Type}

def empty : InboxDb τ ω := ⟨.ofTable .empty, fun _ => [], []⟩

variable [DecidableEq τ]

def rollback (db : InboxDb τ ω) (t : τ) : InboxDb τ ω :=
  { db with inbox := db.inbox.rollback t, work := Function.update db.work t [] }

def commit (db : InboxDb τ ω) (t : τ) : InboxDb τ ω where
  inbox := db.inbox.commit t
  work := Function.update db.work t []
  commits := db.commits ++ [(t, db.work t)]

end InboxDb

section Statements

variable {τ ω : Type} [DecidableEq τ]

/-- Transaction `t`. -/
def inboxTx (t : τ) : TxEnds (InboxDb τ ω) InboxError :=
  ⟨(·.commit t), (·.rollback t), .statementFailed⟩

/-- `SELECT status FROM inbox_messages WHERE event_id = $1 AND consumer_name = $2 FOR UPDATE`. An
absent row is not locked. -/
def selectInboxForUpdate (t : τ) (k : InboxKey) :
    Sync (InboxDb τ ω) InboxError (Option InboxStatus) := fun db =>
  match (db.inbox.view t).row k with
  | none => some (.ok none, db)
  | some row =>
    if db.inbox.Free t k then
      some (.ok (some row.status), { db with inbox := db.inbox.lock t k })
    else none

/-- `INSERT INTO inbox_messages (...) VALUES ($1, $2, 'PROCESSING', NOW())`. While another
transaction has inserted the key and is open, it waits. -/
def insertInbox (t : τ) (k : InboxKey) (now : Time) : Sync (InboxDb τ ω) InboxError Unit := fun db =>
  match (db.inbox.view t).row k with
  | some _ => some (.error .duplicateKey, db)
  | none =>
    if db.inbox.Free t k then
      some (.ok (), { db with inbox := db.inbox.write t k ⟨.processing, now⟩ })
    else none

/-- `UPDATE inbox_messages SET status = 'COMPLETED', processed_at = NOW()
WHERE event_id = $1 AND consumer_name = $2` -/
def completeInbox (t : τ) (k : InboxKey) (now : Time) : Sync (InboxDb τ ω) InboxError Unit :=
  fun db =>
    match (db.inbox.view t).row k with
    | none => some (.ok (), db)
    | some _ =>
      if db.inbox.Free t k then
        some (.ok (), { db with inbox := db.inbox.write t k ⟨.completed, now⟩ })
      else none

/-- A statement of the side effect. -/
def workStatement (t : τ) (s : ω) : Sync (InboxDb τ ω) InboxError Unit :=
  Sync.modify fun db => { db with work := Function.update db.work t (db.work t ++ [s]) }

end Statements

/-! ## `IdempotentConsumer.processTransactional` -/

inductive ConsumerStatus
  | processed
  | duplicateSkipped
  | failed
deriving DecidableEq

structure ConsumerExecutionResult where
  status : ConsumerStatus
  eventId : String
  consumerName : String
  message : Option String
deriving DecidableEq

/-- An event delivered to a consumer, with what the surroundings decide. Before its `n`-th statement
the side effect throws where `onEffect n` is `none`. -/
structure Delivery (ω : Type) where
  eventId : String
  consumerName : String
  sideEffect : List ω
  now : Time
  onBegin : Fate
  onSelect : Fate
  onInsert : Fate
  onEffect : ℕ → Option Fate
  onComplete : Fate
  onCommit : Fate
  onRollback : Fate
  onCatch : Fate

def Delivery.key {ω : Type} (d : Delivery ω) : InboxKey := ⟨d.eventId, d.consumerName⟩

def Delivery.processed {ω : Type} (d : Delivery ω) : ConsumerExecutionResult :=
  ⟨.processed, d.eventId, d.consumerName, none⟩

def Delivery.duplicateSkipped {ω : Type} (d : Delivery ω) : ConsumerExecutionResult :=
  ⟨.duplicateSkipped, d.eventId, d.consumerName,
    some "Event already successfully processed by this consumer"⟩

section Calls

variable {τ ω : Type} [DecidableEq τ]

open Async (await)

/-- `await sideEffect(event, client)`, from its `n`-th statement on. -/
def runSideEffect (t : τ) (d : Delivery ω) : ℕ → List ω → Async (InboxDb τ ω) InboxError Unit
  | n, [] => if d.onEffect n = none then throw .sideEffectThrew else pure ()
  | n, s :: rest =>
    match d.onEffect n with
    | none => throw .sideEffectThrew
    | some fate => do
      await ((inboxTx t).statement fate (workStatement t s))
      runSideEffect t d (n + 1) rest

def processTransactional (t : τ) (d : Delivery ω) :
    Async (InboxDb τ ω) InboxError ConsumerExecutionResult :=
  tryCatch
    (do
      await ((inboxTx t).beginTx d.onBegin)
      let existing ← await ((inboxTx t).statement d.onSelect (selectInboxForUpdate t d.key))
      if existing = some .completed then do
        await ((inboxTx t).rollbackTx d.onRollback)
        pure d.duplicateSkipped
      else do
        if existing = none then
          await ((inboxTx t).statement d.onInsert (insertInbox t d.key d.now))
        else pure ()
        runSideEffect t d 0 d.sideEffect
        await ((inboxTx t).statement d.onComplete (completeInbox t d.key d.now))
        await ((inboxTx t).commitTx d.onCommit)
        pure d.processed)
    fun err => do
      await ((inboxTx t).rollbackTx d.onCatch)
      throw err

/-- `isProcessed`. It reads the committed row, outside any transaction. -/
def isProcessed (k : InboxKey) : Sync (InboxDb τ ω) InboxError Bool :=
  Sync.read fun db => (db.inbox.committed.row k).any fun row => decide (row.status = .completed)

/-- The deliveries, none of which has started, before an empty inbox. -/
def inboxCalls (deliveries : τ → Delivery ω) :
    Config τ (InboxDb τ ω) InboxError ConsumerExecutionResult :=
  ⟨.empty, fun t => processTransactional t (deliveries t)⟩

/-- The COMMITs that took effect for this event and consumer. -/
def commitsFor (deliveries : τ → Delivery ω) (k : InboxKey) (db : InboxDb τ ω) :
    List (τ × List ω) := db.commits.filter fun p => (deliveries p.1).key = k

/-- The COMMITs that took effect for this consumer. -/
def commitsOf (deliveries : τ → Delivery ω) (name : String) (db : InboxDb τ ω) :
    List (τ × List ω) := db.commits.filter fun p => (deliveries p.1).consumerName = name

/-- The COMMIT of `t` has taken effect. -/
def HasCommitted (t : τ) (db : InboxDb τ ω) : Prop := ∃ ws, (t, ws) ∈ db.commits

/-- What has become of an event at a consumer. -/
structure EffectivelyOnce (deliveries : τ → Delivery ω)
    (c : Config τ (InboxDb τ ω) InboxError ConsumerExecutionResult) (k : InboxKey) : Prop where
  at_most_once : (commitsFor deliveries k c.world).length ≤ 1
  /-- Committed once, if and only if a delivery returned PROCESSED, or its COMMIT took effect and
  it has not returned or lost the answer. -/
  once_iff : (commitsFor deliveries k c.world).length = 1 ↔ ∃ t, (deliveries t).key = k
    ∧ ((c.thread t).result = some (.ok (deliveries t).processed)
      ∨ HasCommitted t c.world
        ∧ ((c.thread t).result = none ∨ (deliveries t).onCommit = .answerLost))
  skipped : ∀ t, (deliveries t).key = k →
    (c.thread t).result = some (.ok (deliveries t).duplicateSkipped) →
    (commitsFor deliveries k c.world).length = 1
  /-- What is committed is the whole side effect. -/
  whole : ∀ p ∈ commitsFor deliveries k c.world, p.2 = (deliveries p.1).sideEffect
  completed : ∀ row, c.world.inbox.committed.row k = some row → row.status = .completed

/-- Without the statements of the other consumers' deliveries, the schedule leads this consumer's to
the same point. -/
def Undisturbed (deliveries : τ → Delivery ω) (is : List τ)
    (c : Config τ (InboxDb τ ω) InboxError ConsumerExecutionResult) (name : String) : Prop :=
  ∃ c', (inboxCalls deliveries).runSchedule
      (is.filter fun t => (deliveries t).consumerName = name) = some c'
    ∧ (∀ t, (deliveries t).consumerName = name → c'.thread t = c.thread t)
    ∧ commitsOf deliveries name c'.world = commitsOf deliveries name c.world
    ∧ ∀ eventId, c'.world.inbox.committed.row ⟨eventId, name⟩
      = c.world.inbox.committed.row ⟨eventId, name⟩

end Calls

end LaunchPad
